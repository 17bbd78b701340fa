import KeyWatch.Job.Command
import KeyWatch.Proofs.Text.LineGrammar

/-!
# The grammar of job commands

What the commands look like, said without a scanner: a command is spelled by some characters
(`Command.Spells`). The grammar states its own limits and classes of characters. Each scanner finds
just what the grammar spells: what it takes from the start is spelled (`Scans.sound`), and what is
spelled it takes, if what stands behind cannot belong to it (`Scans.complete`). So a line is the
command that its trimmed text spells, and there is at most one (`ofLine_grammar`).
-/

namespace KeyWatch.Job.Command

open Text

/-! ## Spellings -/

/-- A text that can be a key or a value of a command, by its size and its characters
(`isFieldChar`). -/
def IsField (text : String) : Prop :=
  0 < text.utf8ByteSize ∧ text.utf8ByteSize ≤ maxTextSize ∧ ∀ c ∈ text.toList, isFieldChar c = true

/-- A key or value of 1 to 40 bytes, without brackets, parentheses, commas and blanks, with the gaps
around it (`IsGap`). -/
def SpellsField (text : String) (cs : List Char) : Prop :=
  ∃ before after, IsGap before ∧ IsGap after ∧ 1 ≤ text.utf8ByteSize ∧ text.utf8ByteSize ≤ 40 ∧
    (∀ c ∈ text.toList, c ∉ ['[', ']', '(', ')', ','] ∧ isBlank c = false) ∧
    cs = before ++ text.toList ++ after

/-- A pair in parentheses, with a comma in it and with the gaps around it (`SpellsField`). -/
def SpellsPair (pair : String × String) (cs : List Char) : Prop :=
  ∃ before key value after, IsGap before ∧ IsGap after ∧ SpellsField pair.1 key ∧
    SpellsField pair.2 value ∧ cs = before ++ '(' :: key ++ ',' :: value ++ ')' :: after

/-- Items in order, one or more, with a separator between any two; what an item is spelled by is
left to `Spelled`. -/
inductive SpellsItems {α : Type} (Spelled : α → List Char → Prop) (separator : List Char) :
    List α → List Char → Prop
  | one {x cs} (head : Spelled x cs) : SpellsItems Spelled separator [x] cs
  | cons {x cs batch more} (head : Spelled x cs)
    (tail : SpellsItems Spelled separator batch more) :
    SpellsItems Spelled separator (x :: batch) (cs ++ separator ++ more)

/-- Items that are spelled are not none (`SpellsItems`). -/
theorem SpellsItems.ne_nil {α : Type} {Spelled : α → List Char → Prop}
    {separator cs : List Char} {batch : List α} (h : SpellsItems Spelled separator batch cs) :
    batch ≠ [] := by
  cases h with
  | one | cons => exact List.cons_ne_nil _ _

/-- Items in square brackets, at most 256 (`SpellsItems`). -/
def SpellsBatch {α : Type} (Spelled : α → List Char → Prop) (separator : List Char)
    (batch : List α) (cs : List Char) : Prop :=
  ∃ inner, SpellsItems Spelled separator batch inner ∧ batch.length ≤ 256 ∧
    cs = '[' :: inner ++ [']']

/-- The commands that are spelled at all; a line that is empty or invalid spells none. The words are
those that `scan` looks for. -/
def Spells : Command → List Char → Prop
  | write pairs, cs => SpellsArgument "WRITE" (SpellsBatch SpellsPair []) pairs cs
  | read keys, cs => SpellsArgument "READ" (SpellsBatch SpellsField [',']) keys cs
  | delete keys, cs => SpellsArgument "DELETE" (SpellsBatch SpellsField [',']) keys cs
  | wait delay, cs => SpellsArgument "WAIT" SpellsDelay delay cs
  | «show», cs => cs = "SHOW".toList
  | backup, cs => cs = "BACKUP".toList
  | help, cs => cs = "HELP".toList
  | empty, _ | invalid _, _ => False

/-! ## Scanners -/

/-- A scanner of items finds just what is spelled, up to a closing bracket: what it takes is spelled
(`sound`), and it takes what is spelled (`complete`). -/
structure ScansItems {α : Type} (items : List Char → List α × List Char)
    (Spelled : List α → List Char → Prop) : Prop where
  sound {cs batch rest} (h : items cs = (batch, rest)) (hne : batch ≠ []) :
    ∃ spelled, Spelled batch spelled ∧ cs = spelled ++ rest
  complete {batch spelled} (hspelled : Spelled batch spelled) (rest : List Char) :
    items (spelled ++ ']' :: rest) = (batch, ']' :: rest)

variable {cs rest spelled : List Char} {text : String} {pair : String × String} {c : Char}

/-! ### Fields -/

/-- A character of a field (`isFieldChar`) is none of the grammar's brackets, parentheses and commas
and no blank. -/
theorem isFieldChar_iff : isFieldChar c = true ↔
    c ∉ ['[', ']', '(', ')', ','] ∧ isBlank c = false := by
  simp [isFieldChar, and_assoc]

/-- A field is spelled by a text that `IsField` with gaps around it. -/
theorem spellsField_iff : SpellsField text cs ↔
    ∃ before after, IsGap before ∧ IsGap after ∧ IsField text ∧
      cs = before ++ text.toList ++ after := by
  simp only [SpellsField, IsField, isFieldChar_iff, maxTextSize, and_assoc, Nat.succ_le_iff]

/-- A text that `IsField` spells itself, without gaps. -/
theorem IsField.spells (h : IsField text) : SpellsField text text.toList :=
  spellsField_iff.2 ⟨[], [], isGap_nil, isGap_nil, h, by simp⟩

/-- No field goes on in a gap: neither a space nor a tab is a character of a field
(`isFieldChar`). -/
theorem not_isFieldChar_of_isSpaceOrTab (h : isSpaceOrTab c = true) : isFieldChar c = false := by
  rw [isFieldChar, isBlank_of_isSpaceOrTab h]
  exact Bool.and_false _

/-- Where neither a field nor the gap behind it goes on, so that `spacedField?` stops there. -/
def EndsField (rest : List Char) : Prop := Stops isFieldChar rest ∧ Stops isSpaceOrTab rest

/-- The scanner `spacedField?` finds just the fields that are spelled (`SpellsField`), up to where
they end. A field is as long as it can be, so what stands behind must not go on with it. -/
theorem scans_spacedField? : Scans spacedField? SpellsField EndsField where
  sound := by
    intro cs text rest h
    simp only [spacedField?, Option.bind_eq_bind, Option.bind_eq_some_iff] at h
    obtain ⟨⟨text, behind⟩, hfield, h⟩ := h
    cases h
    obtain ⟨before, rfl, hbefore, hpos, hmax, hall, -⟩ :=
      (field?_skipGap_eq_some_iff fun _ => not_isFieldChar_of_isSpaceOrTab).1 hfield
    obtain ⟨after, hbehind, hafter⟩ := exists_eq_append_skipGap behind
    refine ⟨before ++ text.toList ++ after, ?_, ?_⟩
    · exact spellsField_iff.2 ⟨before, after, hbefore, hafter, ⟨hpos, hmax, hall⟩, rfl⟩
    · rw [List.append_assoc _ after, ← hbehind]
  complete := by
    intro text spelled rest hspelled hend
    obtain ⟨before, after, hbefore, hafter, hfield, rfl⟩ := spellsField_iff.1 hspelled
    have hstops : Stops isFieldChar (after ++ rest) :=
      .append (fun c hc => not_isFieldChar_of_isSpaceOrTab (isGap_iff.1 hafter c hc)) hend.1
    have hfound : field? isFieldChar maxTextSize
        (skipGap (before ++ text.toList ++ after ++ rest)) = some (text, after ++ rest) := by
      refine (field?_skipGap_eq_some_iff fun _ => not_isFieldChar_of_isSpaceOrTab).2 ?_
      exact ⟨before, List.append_assoc _ _ _, hbefore, hfield.1, hfield.2.1, hfield.2.2, hstops⟩
    have hbehind : skipGap (after ++ rest) = rest :=
      skipGap_eq_iff.2 ⟨after, rfl, hafter, hend.2⟩
    simp only [spacedField?, hfound, Option.bind_eq_bind, Option.bind_some, hbehind]
    rfl

/-! ### Pairs -/

/-- The scanner `pair?` finds a pair just if two fields are spelled between parentheses with a comma
between them. -/
theorem pair?_eq_some_iff : pair? cs = some (pair, rest) ↔
    ∃ key value, SpellsField pair.1 key ∧ SpellsField pair.2 value ∧
      cs = '(' :: key ++ ',' :: value ++ ')' :: rest := by
  constructor
  · intro h
    simp only [pair?, Option.bind_eq_bind, Option.bind_eq_some_iff, word?_eq_some_iff] at h
    obtain ⟨_, rfl, ⟨k, _⟩, hk, _, rfl, ⟨v, _⟩, hv, _, rfl, h⟩ := h
    cases h
    obtain ⟨key, hkey, rfl⟩ := scans_spacedField?.sound hk
    obtain ⟨value, hvalue, hrest⟩ := scans_spacedField?.sound hv
    refine ⟨key, value, hkey, hvalue, ?_⟩
    rw [hrest]
    simp
  · rintro ⟨key, value, hkey, hvalue, rfl⟩
    have hopen : word? ['('] ('(' :: key ++ ',' :: value ++ ')' :: rest) =
        some (key ++ ',' :: (value ++ ')' :: rest)) := by simp [word?]
    have hfirst : spacedField? (key ++ ',' :: (value ++ ')' :: rest)) = some (pair.1, _) :=
      scans_spacedField?.complete hkey ⟨stops_cons.2 rfl, stops_cons.2 rfl⟩
    have hcomma : word? [','] (',' :: (value ++ ')' :: rest)) = some (value ++ ')' :: rest) :=
      word?_append [','] _
    have hsecond : spacedField? (value ++ ')' :: rest) = some (pair.2, _) :=
      scans_spacedField?.complete hvalue ⟨stops_cons.2 rfl, stops_cons.2 rfl⟩
    have hclose : word? [')'] (')' :: rest) = some rest := word?_append [')'] rest
    simp only [pair?, hopen, Option.bind_eq_bind, Option.bind_some, hfirst, hcomma, hsecond, hclose]
    rfl

/-- What `spacedPair?` takes from the start is spelled as a pair (`SpellsPair`). -/
theorem spacedPair?_sound (h : spacedPair? cs = some (pair, rest)) :
    ∃ spelled, SpellsPair pair spelled ∧ cs = spelled ++ rest := by
  simp only [spacedPair?, Option.bind_eq_bind, Option.bind_eq_some_iff] at h
  obtain ⟨⟨found, behind⟩, hpair, h⟩ := h
  cases h
  obtain ⟨key, value, hkey, hvalue, hskip⟩ := pair?_eq_some_iff.1 hpair
  obtain ⟨before, hcs, hbefore⟩ := exists_eq_append_skipGap cs
  obtain ⟨after, hbehind, hafter⟩ := exists_eq_append_skipGap behind
  refine ⟨_, ⟨before, key, value, after, hbefore, hafter, hkey, hvalue, rfl⟩, ?_⟩
  refine hcs.trans ?_
  rw [hskip]
  conv_lhs => rw [hbehind]
  simp

/-- A pair that is spelled is found by `spacedPair?`. The gap behind a pair is skipped with what is
skipped behind it. -/
theorem spacedPair?_append (h : SpellsPair pair spelled) (rest : List Char) :
    spacedPair? (spelled ++ rest) = some (pair, skipGap rest) := by
  obtain ⟨before, key, value, after, hbefore, hafter, hkey, hvalue, rfl⟩ := h
  have hskip : skipGap (before ++ '(' :: key ++ ',' :: value ++ ')' :: after ++ rest) =
      '(' :: key ++ ',' :: value ++ ')' :: (after ++ rest) := by
    refine skipGap_eq_iff.2 ⟨before, ?_, hbefore, stops_cons.2 rfl⟩
    simp
  have hpair : pair? ('(' :: key ++ ',' :: value ++ ')' :: (after ++ rest)) = some (pair, _) :=
    pair?_eq_some_iff.2 ⟨key, value, hkey, hvalue, rfl⟩
  simp only [spacedPair?, hskip, hpair, Option.bind_eq_bind, Option.bind_some,
    skipGap_append hafter]
  rfl

/-- What `spacedPair?` finds does not depend on the gap before it. -/
theorem spacedPair?_congr {cs' : List Char} (h : skipGap cs = skipGap cs') :
    spacedPair? cs = spacedPair? cs' := by
  rw [spacedPair?, h]
  rfl

/-- Where `spacedPair?` finds no pair, `pairs` finds none and takes nothing. -/
theorem pairs_of_none (h : spacedPair? cs = none) : pairs cs = ([], cs) := by
  rw [pairs]
  split
  case h_1 => rfl
  case h_2 hsome =>
    rw [h] at hsome
    cases hsome

/-- Where `spacedPair?` finds a pair, `pairs` finds it and goes on behind it. -/
theorem pairs_of_some (h : spacedPair? cs = some (pair, rest)) :
    pairs cs = (pair :: (pairs rest).1, (pairs rest).2) := by
  rw [pairs]
  split
  case h_1 hnone =>
    rw [h] at hnone
    cases hnone
  case h_2 found behind hfound =>
    rw [h] at hfound
    cases hfound
    rfl

/-- What `pairs` finds is spelled, and where nothing is found nothing is taken; by induction with
`spacedPair?_sound`. -/
theorem pairs_sound (cs : List Char) : ((pairs cs).1 = [] ∧ (pairs cs).2 = cs) ∨
    ∃ spelled, SpellsItems SpellsPair [] (pairs cs).1 spelled ∧ cs = spelled ++ (pairs cs).2 := by
  fun_induction pairs cs with
  | case1 cs h => exact .inl ⟨rfl, rfl⟩
  | case2 cs pair rest h _ more ih =>
    obtain ⟨head, hhead, rfl⟩ := spacedPair?_sound h
    refine .inr ?_
    rcases ih with ⟨hnone, hrest⟩ | ⟨tail, htail, hrest⟩
    · rw [hnone, hrest]
      exact ⟨head, .one hhead, rfl⟩
    · refine ⟨head ++ [] ++ tail, .cons hhead htail, ?_⟩
      rw [List.append_nil, List.append_assoc, ← hrest]

/-- Pairs that are spelled are found by `pairs` behind any gap, since a gap before the first is a
part of it; by induction on the pairs. -/
theorem pairs_append {batch : List (String × String)} (h : SpellsItems SpellsPair [] batch spelled)
    (hskip : skipGap cs = skipGap (spelled ++ ']' :: rest)) : pairs cs = (batch, ']' :: rest) := by
  have hstop : skipGap (']' :: rest) = ']' :: rest := skipGap_of_stops (stops_cons.2 rfl)
  induction h generalizing cs with
  | one head =>
    have hsome := (spacedPair?_congr hskip).trans (spacedPair?_append head _)
    have hnone : spacedPair? (']' :: rest) = none := by
      rw [spacedPair?, hstop]
      rfl
    rw [pairs_of_some hsome, hstop, pairs_of_none hnone]
  | cons head tail ih =>
    rw [List.append_nil, List.append_assoc] at hskip
    have hsome := (spacedPair?_congr hskip).trans (spacedPair?_append head _)
    rw [pairs_of_some hsome, ih (skipGap_skipGap _)]

/-- The scanner `pairs` finds just the pairs that are spelled one behind another (`SpellsItems`). -/
theorem scansItems_pairs : ScansItems pairs (SpellsItems SpellsPair []) where
  sound := by
    intro cs batch rest h hne
    have hsound := pairs_sound cs
    rw [h] at hsound
    exact hsound.resolve_left fun hnone => hne hnone.1
  complete hspelled _ := pairs_append hspelled rfl

/-! ### Keys -/

/-- Where no comma with a key behind it stands, `keysBehindCommas` finds none and takes nothing. -/
theorem keysBehindCommas_of_none (h : (word? [','] cs).bind spacedField? = none) :
    keysBehindCommas cs = ([], cs) := by
  rw [keysBehindCommas]
  split
  case h_1 => rfl
  case h_2 hsome =>
    rw [h] at hsome
    cases hsome

/-- Where `spacedField?` finds a key, `keys` finds it and those behind commas. -/
theorem keys_of_some (h : spacedField? cs = some (text, rest)) :
    keys cs = (text :: (keysBehindCommas rest).1, (keysBehindCommas rest).2) := by
  rw [keys, h]

/-- Behind a comma, `keysBehindCommas` finds keys as `keys` does without one before them. -/
theorem keysBehindCommas_comma (h : (keys cs).1 ≠ []) :
    keysBehindCommas (',' :: cs) = keys cs := by
  have hcomma : word? [','] (',' :: cs) = some cs := word?_append [','] cs
  cases hfield : spacedField? cs with
  | none =>
    rw [keys, hfield] at h
    exact absurd rfl h
  | some found =>
    obtain ⟨key, behind⟩ := found
    rw [keys_of_some hfield, keysBehindCommas]
    split
    case h_1 hnone =>
      rw [hcomma, Option.bind_some, hfield] at hnone
      cases hnone
    case h_2 hsome =>
      rw [hcomma, Option.bind_some, hfield] at hsome
      cases hsome
      rfl

/-- Keys that are spelled behind commas, or none, are spelled together with one before them
(`SpellsItems`). -/
theorem spellsKeys_cons {key : String} {head : List Char} {keys : List String}
    (hhead : SpellsField key head)
    (htail : (keys = [] ∧ rest = cs) ∨
      ∃ spelled, SpellsItems SpellsField [','] keys spelled ∧ cs = ',' :: spelled ++ rest) :
    ∃ spelled, SpellsItems SpellsField [','] (key :: keys) spelled ∧
      head ++ cs = spelled ++ rest := by
  rcases htail with ⟨rfl, rfl⟩ | ⟨tail, htail, rfl⟩
  · exact ⟨head, .one hhead, rfl⟩
  · exact ⟨head ++ [','] ++ tail, .cons hhead htail, by simp⟩

/-- What `keysBehindCommas` finds is spelled behind a comma, and where nothing is found nothing is
taken. -/
theorem keysBehindCommas_sound (cs : List Char) :
    ((keysBehindCommas cs).1 = [] ∧ (keysBehindCommas cs).2 = cs) ∨
      ∃ spelled, SpellsItems SpellsField [','] (keysBehindCommas cs).1 spelled ∧
        cs = ',' :: spelled ++ (keysBehindCommas cs).2 := by
  fun_induction keysBehindCommas cs with
  | case1 cs h => exact .inl ⟨rfl, rfl⟩
  | case2 cs key rest h _ more ih =>
    obtain ⟨_, hcomma, hfield⟩ := Option.bind_eq_some_iff.1 h
    obtain rfl := word?_eq_some_iff.1 hcomma
    obtain ⟨head, hhead, rfl⟩ := scans_spacedField?.sound hfield
    obtain ⟨spelled, hspelled, hcs⟩ := spellsKeys_cons hhead ih
    exact .inr ⟨spelled, hspelled, congrArg (',' :: ·) hcs⟩

/-- The scanner `keys` finds just the keys that are spelled with commas between them
(`SpellsItems`). -/
theorem scansItems_keys : ScansItems keys (SpellsItems SpellsField [',']) where
  sound := by
    intro cs batch rest h hne
    unfold keys at h
    split at h
    case h_1 =>
      cases h
      exact absurd rfl hne
    case h_2 key behind hfield =>
      cases h
      obtain ⟨head, hhead, rfl⟩ := scans_spacedField?.sound hfield
      exact spellsKeys_cons hhead (keysBehindCommas_sound behind)
  complete := by
    intro batch spelled h rest
    induction h with
    | one head =>
      have hnone : (word? [','] (']' :: rest)).bind spacedField? = none := rfl
      rw [keys_of_some (scans_spacedField?.complete head ⟨stops_cons.2 rfl, stops_cons.2 rfl⟩),
        keysBehindCommas_of_none hnone]
    | @cons key cs batch more head tail ih =>
      have hfirst : spacedField? (cs ++ ',' :: (more ++ ']' :: rest)) = some (key, _) :=
        scans_spacedField?.complete head ⟨stops_cons.2 rfl, stops_cons.2 rfl⟩
      have hmore : (keys (more ++ ']' :: rest)).1 ≠ [] := by
        rw [ih]
        exact tail.ne_nil
      rw [List.append_assoc, List.append_assoc, List.singleton_append,
        keys_of_some hfirst, keysBehindCommas_comma hmore, ih]

/-! ### Batches -/

/-- The scanner `bracketed?` finds just the batches that are spelled (`SpellsBatch`), if its scanner
of items finds just the items that are. It takes what stands between brackets and refuses a batch
that is empty or too long, as the grammar does. -/
theorem scans_bracketed? {α : Type} {items : List Char → List α × List Char}
    {Spelled : α → List Char → Prop} {separator : List Char}
    (h : ScansItems items (SpellsItems Spelled separator)) :
    Scans (bracketed? items) (SpellsBatch Spelled separator) fun _ => True where
  sound := by
    intro cs batch rest hbatch
    simp only [bracketed?, Option.bind_eq_bind, Option.bind_eq_some_iff, word?_eq_some_iff]
      at hbatch
    obtain ⟨inner, rfl, hbatch⟩ := hbatch
    split at hbatch
    case isTrue => cases hbatch
    case isFalse hsize =>
      simp only [Bool.or_eq_true, List.isEmpty_iff, decide_eq_true_eq, not_or, Nat.not_lt] at hsize
      obtain ⟨_, hclose, hbatch⟩ := Option.bind_eq_some_iff.1 hbatch
      cases hbatch
      obtain ⟨spelled, hspelled, hinner⟩ := h.sound (rfl : items inner = _) hsize.1
      refine ⟨_, ⟨spelled, hspelled, hsize.2, rfl⟩, ?_⟩
      rw [hinner, word?_eq_some_iff.1 hclose]
      simp
  complete := by
    rintro batch _ rest ⟨inner, hinner, hmax, rfl⟩ -
    have hopen : word? ['['] ('[' :: inner ++ [']'] ++ rest) = some (inner ++ ']' :: rest) := by
      simp [word?]
    have hclose : word? [']'] (']' :: rest) = some rest := word?_append [']'] rest
    have hsize : ¬(batch.isEmpty || decide (maxBatchSize < batch.length)) = true := by
      simp only [Bool.or_eq_true, List.isEmpty_iff, decide_eq_true_eq, not_or]
      exact ⟨hinner.ne_nil, Nat.not_lt.2 hmax⟩
    simp only [bracketed?, hopen, Option.bind_eq_bind, Option.bind_some, h.complete hinner rest,
      hclose, if_neg hsize]
    rfl

/-! ## Commands -/

/-- A batch begins with a bracket, so no gap goes on in it (`Stops`). -/
theorem SpellsBatch.stops {α : Type} {Spelled : α → List Char → Prop} {separator : List Char}
    {batch : List α} (h : SpellsBatch Spelled separator batch spelled) (rest : List Char) :
    Stops isSpaceOrTab (spelled ++ rest) := by
  obtain ⟨inner, -, -, rfl⟩ := h
  exact stops_cons.2 rfl

/-- The word of a write and its batch of pairs are found by `argument?` just if they are spelled. -/
theorem scans_write :
    Scans (argument? "WRITE" (bracketed? pairs))
      (SpellsArgument "WRITE" (SpellsBatch SpellsPair [])) fun _ => True :=
  scans_argument? "WRITE" (scans_bracketed? scansItems_pairs) SpellsBatch.stops

/-- A word and keys in brackets, as reads and deletions have them, are found by `argument?` just if
they are spelled. -/
theorem scans_keys (word : String) :
    Scans (argument? word (bracketed? keys))
      (SpellsArgument word (SpellsBatch SpellsField [','])) fun _ => True :=
  scans_argument? word (scans_bracketed? scansItems_keys) SpellsBatch.stops

/-- The word of a wait and its delay are found by `argument?` just if they are spelled, up to where
the digits end. -/
theorem scans_wait :
    Scans (argument? "WAIT" (number? delayLimit)) (SpellsArgument "WAIT" SpellsDelay)
      (Stops Char.isDigit) :=
  scans_argument? "WAIT" scans_delay SpellsDelay.stops

/-- The scanner `scan` finds just the commands that are spelled. They begin with different words, so
none is taken for another. -/
theorem scans_scan : Scans scan Spells (Stops Char.isDigit) where
  sound := by
    intro cs command rest h
    simp only [scan, bare?, Option.orElse_eq_orElse, Option.orElse_eq_or, Option.or_eq_some_iff,
      Option.map_eq_some_iff, word?_eq_some_iff] at h
    rcases h with ⟨⟨_, _⟩, h, he⟩ | ⟨-, ⟨⟨_, _⟩, h, he⟩ | ⟨-, ⟨⟨_, _⟩, h, he⟩ |
      ⟨-, ⟨⟨_, _⟩, h, he⟩ | ⟨-, ⟨_, h, he⟩ | ⟨-, ⟨_, h, he⟩ | ⟨-, _, h, he⟩⟩⟩⟩⟩⟩ <;> cases he
    · exact scans_write.sound h
    · exact (scans_keys "READ").sound h
    · exact (scans_keys "DELETE").sound h
    · exact scans_wait.sound h
    all_goals exact ⟨_, rfl, h⟩
  complete := by
    intro command spelled rest h hend
    cases command with
    | write pairs =>
      rw [scan, scans_write.complete h trivial]
      rfl
    | read keys =>
      have hread : _ = some (keys, rest) := (scans_keys "READ").complete h trivial
      obtain ⟨gap, argument, -, -, -, rfl⟩ := h
      rw [scan, hread]
      rfl
    | delete keys =>
      have hdelete : _ = some (keys, rest) := (scans_keys "DELETE").complete h trivial
      obtain ⟨gap, argument, -, -, -, rfl⟩ := h
      rw [scan, hdelete]
      rfl
    | wait delay =>
      have hwait : _ = some (delay, rest) := scans_wait.complete h hend
      obtain ⟨gap, argument, -, -, -, rfl⟩ := h
      rw [scan, hwait]
      rfl
    | «show» | backup | help =>
      obtain rfl := h
      rfl
    | empty | invalid => exact h.elim

/-! ## Lines -/

/-- What spells a command of a job starts with a letter of the command's word, and so not as a
comment, which `isSilent` would take for a line with nothing to say. -/
theorem Spells.opens {command : Command} {cs : List Char} (h : Spells command cs) :
    ∃ c rest, cs = c :: rest ∧ c ≠ '#' := by
  cases command with
  | write | read | delete | wait =>
    obtain ⟨gap, argument, -, -, -, rfl⟩ := h
    exact ⟨_, _, rfl, by decide⟩
  | «show» | backup | help =>
    obtain rfl := h
    exact ⟨_, _, rfl, by decide⟩
  | empty | invalid => exact h.elim

/-- No characters spell the empty command, which stands for a line with nothing to say
(`isSilent`). -/
theorem not_spells_empty (cs : List Char) : ¬Spells empty cs := id

/-- No characters spell an invalid command, which stands for a line that `scan` does not take
whole. -/
theorem not_spells_invalid (line : String) (cs : List Char) : ¬Spells (invalid line) cs := id

/-- The empty command is not an invalid one, so a line that says nothing is told from one that is no
command of a job. -/
theorem empty_ne_invalid (line : String) : empty ≠ invalid line := nofun

/-- The grammar of jobs. Its scanner is the one that `parse` runs over the whole text, so to read a
line by the grammar is `ofLine` (`ofLine_eq_read`). -/
def grammar : LineGrammar Command where
  empty := empty
  invalid := invalid
  scan := scan
  Spells := Spells
  End := Stops Char.isDigit
  scans := scans_scan
  ends := stops_nil _
  opens := Spells.opens
  not_spells_empty := not_spells_empty
  not_spells_invalid := not_spells_invalid
  empty_ne_invalid := empty_ne_invalid
  invalid_inj := invalid.inj

/-- The command that `parse` finds is the one that `scan` finds in the whole text. -/
theorem toOption_parse (text : String) : (parse text).toOption = whole? scan text := by
  unfold parse whole?
  cases scan text.toList with
  | none => rfl
  | some found =>
    simp only
    split
    · rfl
    · rfl

/-- The command that `ofLine` finds on a line of a job is the one that its `grammar` reads. -/
theorem ofLine_eq_read (line : String) : ofLine line = grammar.read line :=
  congrArg (readLine empty invalid · line) (funext toOption_parse)

/-- A line is read by `ofLine` as the grammar has it, whatever stands on it: with the blanks cut
from its ends, it is empty if nothing is left or a number sign begins what is left; it is a command
just if what is left spells the command; and else it is invalid, with what is left. -/
theorem ofLine_grammar (line : String) :
    let text := trim line
    (∃ before after, line.toList = before ++ text.toList ++ after ∧
        (∀ c ∈ before ++ after, isBlank c = true) ∧ Stops isBlank text.toList ∧
        Stops isBlank text.toList.reverse) ∧
      (ofLine line = .empty ↔ text = "" ∨ text.toList.head? = some '#') ∧
      (∀ command, Spells command text.toList ↔
        ofLine line = command ∧ command ≠ .empty ∧ ∀ s, command ≠ .invalid s) ∧
      ∀ s, ofLine line = .invalid s ↔
        s = text ∧ ¬(text = "" ∨ text.toList.head? = some '#') ∧
          ∀ command, ¬Spells command text.toList := by
  intro text
  simp only [ofLine_eq_read, ← isSilent_iff]
  exact ⟨trim_spec line, LineGrammar.read_eq_empty_iff (g := grammar),
    fun command => LineGrammar.spells_iff (g := grammar) (x := command),
    fun s => LineGrammar.read_eq_invalid_iff (g := grammar)⟩

end KeyWatch.Job.Command
