import KeyWatch.Proofs.Text.Tokens

/-!
# Grammars of lines

A command language is read line by line (`Text.readLine`), and its grammar says by what characters
each of its commands is spelled. The scanner of a language finds just what the grammar spells: what
it takes from the start of a line is spelled (`Text.Scans.sound`), and what is spelled it takes, if
what stands behind cannot belong to it (`Text.Scans.complete`).

What follows for whole lines is the same in every such language (`Text.LineGrammar`): a line is
empty just if it is silent (`LineGrammar.read_eq_empty_iff`), it is a command just if its trimmed
text spells the command (`LineGrammar.spells_iff`), and else it is invalid
(`LineGrammar.read_eq_invalid_iff`). Most commands are a word and an argument behind a gap
(`Text.SpellsArgument`), and of the arguments one is in every language, the delay of a pause
(`Text.SpellsDelay`).
-/

namespace KeyWatch.Text

/-! ## Scanners -/

/-- A scanner finds just what is spelled: it is sound, and complete where an end stands behind what
is spelled. -/
structure Scans {α : Type} (token : List Char → Option (α × List Char))
    (Spelled : α → List Char → Prop) (End : List Char → Prop) : Prop where
  sound {cs x rest} (h : token cs = some (x, rest)) :
    ∃ spelled, Spelled x spelled ∧ cs = spelled ++ rest
  complete {x spelled rest} (hspelled : Spelled x spelled) (hend : End rest) :
    token (spelled ++ rest) = some (x, rest)

variable {cs rest spelled : List Char} {text line : String}

/-- Of a text that does not end with a blank a scanner takes the whole (`whole?`) just if all of it
is spelled, since no gap can stand behind what is found. -/
theorem Scans.whole?_eq_some_iff {α : Type} {scan : List Char → Option (α × List Char)}
    {Spelled : α → List Char → Prop} {End : List Char → Prop} (h : Scans scan Spelled End)
    (hend : End []) (hlast : Stops isBlank text.toList.reverse) {x : α} :
    whole? scan text = some x ↔ Spelled x text.toList := by
  constructor
  · intro hwhole
    unfold whole? at hwhole
    split at hwhole
    case h_1 found rest hscan =>
      split at hwhole
      case isFalse => cases hwhole
      case isTrue hempty =>
        cases hwhole
        obtain ⟨spelled, hspelled, htext⟩ := h.sound hscan
        obtain ⟨gap, hrest, hgap⟩ := exists_eq_append_skipGap rest
        rw [List.isEmpty_iff.1 hempty, List.append_nil] at hrest
        obtain rfl : rest = gap := hrest
        rw [htext] at hlast
        rw [htext, hgap.eq_nil hlast, List.append_nil]
        exact hspelled
    case h_2 => cases hwhole
  · intro hspelled
    have hscan : scan text.toList = some (x, []) := by
      rw [← List.append_nil text.toList]
      exact h.complete hspelled hend
    rw [whole?, hscan]
    rfl

/-! ## Words with arguments -/

/-- A delay is spelled by the digits of a number below two to the sixty-fourth, of which there may
be zeros in front. -/
def SpellsDelay (delay : Nat) (digits : List Char) : Prop :=
  digits ≠ [] ∧ (∀ c ∈ digits, c.isDigit = true) ∧ delay < 2 ^ 64 ∧
    delay = Nat.ofDigits 10 (digits.reverse.map fun c => c.toNat - '0'.toNat)

/-- A word, and behind a gap that is not empty (`IsGap`) the spelling of what it is about. -/
def SpellsArgument {α : Type} (word : String) (Spelled : α → List Char → Prop) (x : α)
    (cs : List Char) : Prop :=
  ∃ gap argument, gap ≠ [] ∧ IsGap gap ∧ Spelled x argument ∧ cs = word.toList ++ gap ++ argument

/-- The number of a delay is found by `number?` just where one is spelled, up to a character that is
no digit. -/
theorem scans_delay : Scans (number? UInt64.size) SpellsDelay (Stops Char.isDigit) where
  sound := by
    intro cs delay rest h
    obtain ⟨digits, hcs, hne, hall, hvalue, hmax, -⟩ := number?_eq_some_iff.1 h
    rw [digitsValue_eq_ofDigits] at hvalue
    exact ⟨digits, ⟨hne, hall, hmax, hvalue.symm⟩, hcs⟩
  complete := by
    rintro delay digits rest ⟨hne, hall, hmax, hvalue⟩ hend
    rw [← digitsValue_eq_ofDigits] at hvalue
    exact number?_eq_some_iff.2 ⟨digits, rfl, hne, hall, hvalue.symm, hmax, hend⟩

/-- No delay begins with a gap, so the gap behind a command's word ends before it. -/
theorem SpellsDelay.stops {delay : Nat} (h : SpellsDelay delay spelled) (rest : List Char) :
    Stops isSpaceOrTab (spelled ++ rest) := by
  obtain ⟨hne, hall, -⟩ := h
  refine stops_append_of_ne_nil hne (fun c hc => Bool.eq_false_iff.2 fun hspace => ?_) rest
  have hdigit := hall c hc
  simp only [isSpaceOrTab, Bool.or_eq_true, beq_iff_eq] at hspace
  rcases hspace with rfl | rfl <;> cases hdigit

/-- A scanner of arguments makes one of a word with its argument (`argument?`), if no argument
begins with a gap, which would belong to the gap behind the word. -/
theorem scans_argument? {α : Type} {token : List Char → Option (α × List Char)}
    {Spelled : α → List Char → Prop} {End : List Char → Prop} (word : String)
    (h : Scans token Spelled End)
    (hfirst : ∀ {x spelled}, Spelled x spelled → ∀ rest, Stops isSpaceOrTab (spelled ++ rest)) :
    Scans (argument? word token) (SpellsArgument word Spelled) End where
  sound := by
    intro cs x rest hx
    simp only [argument?, Option.bind_eq_bind, Option.bind_eq_some_iff, word?_eq_some_iff,
      gap?_eq_some_iff] at hx
    obtain ⟨_, rfl, _, ⟨gap, rfl, hne, hgap, -⟩, hx⟩ := hx
    obtain ⟨argument, hargument, rfl⟩ := h.sound hx
    refine ⟨_, ⟨gap, argument, hne, hgap, hargument, rfl⟩, ?_⟩
    simp only [List.append_assoc]
  complete := by
    rintro x _ rest ⟨gap, argument, hne, hgap, hargument, rfl⟩ hend
    have hbehind : gap? (gap ++ (argument ++ rest)) = some (argument ++ rest) :=
      gap?_eq_some_iff.2 ⟨gap, rfl, hne, hgap, hfirst hargument rest⟩
    simp only [argument?, List.append_assoc, word?_append, Option.bind_eq_bind, Option.bind_some,
      hbehind, h.complete hargument hend]

/-! ## Lines -/

/-- A line has nothing to say by `isSilent` just if it is blank or a comment. -/
theorem isSilent_iff : isSilent text = true ↔ text = "" ∨ text.toList.head? = some '#' := by
  rw [isSilent, ← String.toList_eq_nil_iff]
  cases text.toList with
  | nil => simp
  | cons c cs => simp

/-- The grammar of a command language: its empty and its invalid commands, its scanner, and by what
characters a command is spelled and what may stand behind it. The scanner finds just what is spelled
(`Scans`), and neither the empty nor an invalid command is spelled, nor is anything that begins as a
comment. -/
structure LineGrammar (α : Type) where
  empty : α
  invalid : String → α
  scan : List Char → Option (α × List Char)
  Spells : α → List Char → Prop
  End : List Char → Prop
  scans : Scans scan Spells End
  ends : End []
  opens : ∀ {x cs}, Spells x cs → ∃ c rest, cs = c :: rest ∧ c ≠ '#'
  not_spells_empty : ∀ cs, ¬Spells empty cs
  not_spells_invalid : ∀ s cs, ¬Spells (invalid s) cs
  empty_ne_invalid : ∀ s, empty ≠ invalid s
  invalid_inj : ∀ {s t}, invalid s = invalid t → s = t

namespace LineGrammar

variable {α : Type} (g : LineGrammar α)

/-- The command that the language reads on a line (`readLine`): the one that its scanner finds, if
that takes the trimmed line whole. -/
def read (line : String) : α := readLine g.empty g.invalid (whole? g.scan) line

variable {g} {x : α}

/-- What spells a command has something to say, since it does not begin as a comment
(`LineGrammar.opens`). -/
theorem not_isSilent (h : g.Spells x text.toList) : isSilent text = false := by
  obtain ⟨c, rest, hcs, hc⟩ := g.opens h
  rw [isSilent, hcs]
  exact beq_eq_false_iff_ne.2 hc

/-- A line whose trimmed text spells a command is read as that command. -/
theorem read_of_spells (h : g.Spells x (trim line).toList) : g.read line = x := by
  obtain ⟨_, _, -, -, -, hlast⟩ := trim_spec line
  have hwhole := (g.scans.whole?_eq_some_iff g.ends hlast).2 h
  simp only [read, readLine, not_isSilent h, hwhole, Option.getD_some]
  rfl

/-- A line is silent, or it is read as a command that its trimmed text spells, or it spells none and
is invalid. The three exclude each other, which the lemmas below read off. -/
theorem read_cases (g : LineGrammar α) (line : String) :
    (isSilent (trim line) = true ∧ g.read line = g.empty) ∨
      g.Spells (g.read line) (trim line).toList ∨
        (isSilent (trim line) = false ∧ (∀ x, ¬g.Spells x (trim line).toList) ∧
          g.read line = g.invalid (trim line)) := by
  cases hsilent : isSilent (trim line) with
  | true => exact .inl ⟨rfl, if_pos hsilent⟩
  | false =>
    refine .inr ?_
    by_cases hspelled : ∃ x, g.Spells x (trim line).toList
    · obtain ⟨x, h⟩ := hspelled
      rw [read_of_spells h]
      exact .inl h
    · have hnone := not_exists.1 hspelled
      obtain ⟨_, _, -, -, -, hlast⟩ := trim_spec line
      have hwhole : whole? g.scan (trim line) = none :=
        Option.eq_none_iff_forall_ne_some.2 fun x hx =>
          hnone x ((g.scans.whole?_eq_some_iff g.ends hlast).1 hx)
      refine .inr ⟨rfl, hnone, ?_⟩
      simp only [read, readLine, hsilent, hwhole, Option.getD_none]
      rfl

/-- A line is read as the empty command just if it is silent (`isSilent`). -/
theorem read_eq_empty_iff : g.read line = g.empty ↔ isSilent (trim line) = true := by
  have hcases := g.read_cases line
  -- what is known of the command on the line is enough, so how it was found is forgotten
  generalize g.read line = found at hcases ⊢
  rcases hcases with ⟨hsilent, rfl⟩ | h | ⟨hsilent, -, rfl⟩
  · exact iff_of_true rfl hsilent
  · refine iff_of_false ?_ (Bool.eq_false_iff.1 (not_isSilent h))
    rintro rfl
    exact g.not_spells_empty _ h
  · exact iff_of_false (g.empty_ne_invalid _).symm (Bool.eq_false_iff.1 hsilent)

/-- The trimmed text of a line spells a command just if the line is read as it and it is neither the
empty nor an invalid command. -/
theorem spells_iff : g.Spells x (trim line).toList ↔
    g.read line = x ∧ x ≠ g.empty ∧ ∀ s, x ≠ g.invalid s := by
  constructor
  · intro h
    refine ⟨read_of_spells h, ?_, fun s => ?_⟩
    · rintro rfl
      exact g.not_spells_empty _ h
    · rintro rfl
      exact g.not_spells_invalid s _ h
  · rintro ⟨rfl, hempty, hinvalid⟩
    rcases g.read_cases line with ⟨-, h⟩ | h | ⟨-, -, h⟩
    · exact absurd h hempty
    · exact h
    · exact absurd h (hinvalid _)

/-- A line is invalid just if it is not silent and spells no command, and then it is invalid with
its trimmed text. -/
theorem read_eq_invalid_iff {s : String} : g.read line = g.invalid s ↔
    s = trim line ∧ ¬isSilent (trim line) = true ∧ ∀ x, ¬g.Spells x (trim line).toList := by
  have hcases := g.read_cases line
  generalize g.read line = found at hcases ⊢
  rcases hcases with ⟨hsilent, rfl⟩ | h | ⟨hsilent, hnone, rfl⟩
  · exact iff_of_false (g.empty_ne_invalid s) fun hline => hline.2.1 hsilent
  · refine iff_of_false ?_ fun hline => hline.2.2 _ h
    rintro rfl
    exact g.not_spells_invalid s _ h
  · constructor
    · intro he
      exact ⟨(g.invalid_inj he).symm, Bool.eq_false_iff.1 hsilent, hnone⟩
    · rintro ⟨rfl, -⟩
      rfl

end LineGrammar

end KeyWatch.Text
