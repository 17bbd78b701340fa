import KeyWatch.Client.Command
import KeyWatch.Proofs.Text.LineGrammar
import KeyWatch.Proofs.Wire.Decoded

/-!
# The grammar of client commands

What the lines of a client look like, said without a scanner: a command is spelled by some
characters (`Command.Spells`). A command is spelled by a word and what stands behind a gap, as with
jobs, but the key stands alone in its brackets, and the grammar has its own class of characters for
it. The scanner finds just what is spelled (`scans_scan`), so a line is the command that its trimmed
text spells, and where it spells none it is empty or invalid (`ofLine_exact`). A key on a line is
never too long for the request that carries it.
-/

namespace KeyWatch.Client.Command

open Text

/-! ## Spellings -/

/-- A key of 1 to 40 bytes, without square brackets, commas and blanks, in square brackets with or
without gaps around it (`IsGap`). -/
def SpellsKey (key : String) (cs : List Char) : Prop :=
  ∃ before after, IsGap before ∧ IsGap after ∧ 1 ≤ key.utf8ByteSize ∧ key.utf8ByteSize ≤ 40 ∧
    (∀ c ∈ key.toList, c ∉ ['[', ']', ','] ∧ isBlank c = false) ∧
    cs = '[' :: before ++ key.toList ++ after ++ [']']

/-- The commands that are spelled at all; a line that is empty or invalid spells none. The words are
those that `scan` looks for. -/
def Spells : Command → List Char → Prop
  | subscribe key, cs => SpellsArgument "SUBSCRIBE" SpellsKey key cs
  | unsubscribe key, cs => SpellsArgument "UNSUBSCRIBE" SpellsKey key cs
  | delay time, cs => SpellsArgument "DELAY" SpellsDelay time cs
  | disconnect, cs => cs = "DISCONNECT".toList
  | empty, _ | invalid _, _ => False

/-! ## Scanners -/

variable {cs rest spelled : List Char} {key text line : String} {command : Command} {c : Char}

/-- A character of a key (`isKeyChar`) is none of the grammar's brackets and commas and no blank. -/
theorem isKeyChar_iff : isKeyChar c = true ↔ c ∉ ['[', ']', ','] ∧ isBlank c = false := by
  simp [isKeyChar, and_assoc]

/-- No key goes on in a gap: neither a space nor a tab is a character of a key (`isKeyChar`). -/
theorem not_isKeyChar_of_isSpaceOrTab (h : isSpaceOrTab c = true) : isKeyChar c = false := by
  rw [isKeyChar, isBlank_of_isSpaceOrTab h]
  exact Bool.and_false _

/-- The scanner `bracketedKey?` finds just the keys that are spelled (`SpellsKey`), whatever stands
behind them. -/
theorem scans_bracketedKey? : Scans bracketedKey? SpellsKey fun _ => True where
  sound := by
    intro cs key rest h
    simp only [bracketedKey?, Option.bind_eq_bind, Option.bind_eq_some_iff, word?_eq_some_iff] at h
    obtain ⟨_, rfl, ⟨key, behind⟩, hkey, _, hclose, h⟩ := h
    cases h
    obtain ⟨before, rfl, hbefore, hpos, hmax, hall, -⟩ :=
      (field?_skipGap_eq_some_iff fun _ => not_isKeyChar_of_isSpaceOrTab).1 hkey
    obtain ⟨after, hbehind, hafter⟩ := exists_eq_append_skipGap behind
    refine ⟨'[' :: before ++ key.toList ++ after ++ [']'], ?_, ?_⟩
    · exact ⟨before, after, hbefore, hafter, hpos, hmax, fun c hc => isKeyChar_iff.1 (hall c hc),
        rfl⟩
    · rw [hbehind, hclose]
      simp
  complete := by
    rintro key _ rest ⟨before, after, hbefore, hafter, hpos, hmax, hall, rfl⟩ -
    have hopen : word? ['['] ('[' :: before ++ key.toList ++ after ++ [']'] ++ rest) =
        some (before ++ key.toList ++ (after ++ ']' :: rest)) :=
      word?_eq_some_iff.2 (by simp)
    have hstops : Stops isKeyChar (after ++ ']' :: rest) := by
      refine .append (fun c hc => ?_) (stops_cons.2 rfl)
      exact not_isKeyChar_of_isSpaceOrTab (isGap_iff.1 hafter c hc)
    have hkey : field? isKeyChar maxTextSize
        (skipGap (before ++ key.toList ++ (after ++ ']' :: rest))) =
          some (key, after ++ ']' :: rest) := by
      refine (field?_skipGap_eq_some_iff fun _ => not_isKeyChar_of_isSpaceOrTab).2 ?_
      exact ⟨before, rfl, hbefore, hpos, hmax, fun c hc => isKeyChar_iff.2 (hall c hc), hstops⟩
    have hbehind : skipGap (after ++ ']' :: rest) = ']' :: rest :=
      skipGap_eq_iff.2 ⟨after, rfl, hafter, stops_cons.2 rfl⟩
    have hclose : word? [']'] (']' :: rest) = some rest := word?_append [']'] rest
    simp only [bracketedKey?, hopen, Option.bind_eq_bind, Option.bind_some, hkey, hbehind, hclose]
    rfl

/-- A word and a key in brackets, as subscriptions and their ends have them, are found by
`argument?` just if they are spelled. -/
theorem scans_key (word : String) :
    Scans (argument? word bracketedKey?) (SpellsArgument word SpellsKey) fun _ => True := by
  refine scans_argument? word scans_bracketedKey? ?_
  rintro key _ ⟨before, after, -, -, -, -, -, rfl⟩ rest
  exact stops_cons.2 rfl

/-- The scanner `scan` finds just the commands that are spelled. They begin with different words, so
none is taken for another. -/
theorem scans_scan : Scans scan Spells (Stops Char.isDigit) where
  sound := by
    intro cs command rest h
    simp only [scan, Option.orElse_eq_orElse, Option.orElse_eq_or, Option.or_eq_some_iff,
      Option.map_eq_some_iff, word?_eq_some_iff] at h
    rcases h with ⟨⟨_, _⟩, h, he⟩ | ⟨-, ⟨⟨_, _⟩, h, he⟩ | ⟨-, ⟨⟨_, _⟩, h, he⟩ | ⟨-, _, h, he⟩⟩⟩
    · cases he
      exact (scans_key "SUBSCRIBE").sound h
    · cases he
      exact (scans_key "UNSUBSCRIBE").sound h
    · cases he
      exact (scans_argument? "DELAY" Text.scans_delay SpellsDelay.stops).sound h
    · cases he
      exact ⟨_, rfl, h⟩
  complete := by
    intro command spelled rest h hend
    cases command with
    | subscribe key =>
      have hkey : _ = some (key, rest) := (scans_key "SUBSCRIBE").complete h trivial
      rw [scan, hkey]
      rfl
    | unsubscribe key =>
      have hkey : _ = some (key, rest) := (scans_key "UNSUBSCRIBE").complete h trivial
      obtain ⟨gap, argument, -, -, -, rfl⟩ := h
      rw [scan, hkey]
      rfl
    | delay time =>
      have htime : argument? "DELAY" (number? delayLimit) (spelled ++ rest) = some (time, rest) :=
        (scans_argument? "DELAY" Text.scans_delay SpellsDelay.stops).complete h hend
      obtain ⟨gap, argument, -, -, -, rfl⟩ := h
      rw [scan, htime]
      rfl
    | disconnect =>
      obtain rfl := h
      rfl
    | empty | invalid => exact h.elim

/-! ## Lines -/

/-- What spells a command of a client starts with a letter of the command's word, and so not as a
comment, which `isSilent` would take for a line with nothing to say. -/
theorem Spells.opens {command : Command} {cs : List Char} (h : Spells command cs) :
    ∃ c rest, cs = c :: rest ∧ c ≠ '#' := by
  cases command with
  | subscribe | unsubscribe | delay =>
    obtain ⟨gap, argument, -, -, -, rfl⟩ := h
    exact ⟨_, _, rfl, by decide⟩
  | disconnect =>
    obtain rfl := h
    exact ⟨_, _, rfl, by decide⟩
  | empty | invalid => exact h.elim

/-- No characters spell the empty command, which stands for a line with nothing to say
(`isSilent`). -/
theorem not_spells_empty (cs : List Char) : ¬Spells empty cs := id

/-- No characters spell an invalid command, which stands for a line that `scan` does not take
whole. -/
theorem not_spells_invalid (line : String) (cs : List Char) : ¬Spells (invalid line) cs := id

/-- The empty command is not an invalid one, so a line that says nothing is told from one that is no
command of a client. -/
theorem empty_ne_invalid (line : String) : empty ≠ invalid line := nofun

/-- The grammar of clients. Its scanner is the one by which `ofLine` reads a line, so to read a line
by the grammar is `ofLine` itself. -/
def grammar : LineGrammar Command where
  empty := empty
  invalid := invalid
  scan := scan
  Spells := Spells
  End := Stops Char.isDigit
  scans := scans_scan
  ends := stops_nil _
  opens := Spells.opens
  not_spells_empty := not_spells_empty
  not_spells_invalid := not_spells_invalid
  empty_ne_invalid := empty_ne_invalid
  invalid_inj := invalid.inj

/-- A line is a command by `ofLine` just if its trimmed text spells the command. -/
theorem ofLine_eq_iff (hempty : command ≠ .empty) (hinvalid : ∀ s, command ≠ .invalid s) :
    ofLine line = command ↔ Spells command (trim line).toList := by
  refine ⟨fun h => ?_, fun h => LineGrammar.read_of_spells (g := grammar) h⟩
  exact (LineGrammar.spells_iff (g := grammar)).2 ⟨h, hempty, hinvalid⟩

/-- A key that stands on a line fits into both of the requests that carry a key
(`Request.encode`). -/
theorem exists_encode_of_ofLine
    (h : ofLine line = .subscribe key ∨ ofLine line = .unsubscribe key) {r : Request}
    (hr : r = .subscribe key ∨ r = .unsubscribe key) : ∃ frame, r.encode = .ok frame := by
  have hkey : ∃ argument, SpellsKey key argument := by
    rcases h with h | h
    · obtain ⟨_, argument, -, -, hargument, -⟩ :=
        (@ofLine_eq_iff line (.subscribe key) nofun nofun).1 h
      exact ⟨argument, hargument⟩
    · obtain ⟨_, argument, -, -, hargument, -⟩ :=
        (@ofLine_eq_iff line (.unsubscribe key) nofun nofun).1 h
      exact ⟨argument, hargument⟩
  obtain ⟨_, _, _, -, -, -, hmax, -⟩ := hkey
  refine Request.exists_encode_of_withinLimits ?_
  rcases hr with rfl | rfl
  · exact hmax
  · exact hmax

/-- A line is read by `ofLine` as the grammar has it, whatever stands on it: with the blanks cut
from its ends, it is empty just if nothing is left or a number sign begins what is left; it is a
command just if what is left spells the command; and in every other case it is invalid, with what is
left. A key on it can be asked for on the wire. -/
theorem ofLine_exact (line : String) :
    let text := trim line
    (∃ before after, line.toList = before ++ text.toList ++ after ∧
        (∀ c ∈ before ++ after, isBlank c = true) ∧ Stops isBlank text.toList ∧
        Stops isBlank text.toList.reverse) ∧
      (ofLine line = .empty ↔ text = "" ∨ text.toList.head? = some '#') ∧
      (∀ key, ofLine line = .subscribe key ↔
        SpellsArgument "SUBSCRIBE" SpellsKey key text.toList) ∧
      (∀ key, ofLine line = .unsubscribe key ↔
        SpellsArgument "UNSUBSCRIBE" SpellsKey key text.toList) ∧
      (∀ time, ofLine line = .delay time ↔
        SpellsArgument "DELAY" SpellsDelay time text.toList) ∧
      (ofLine line = .disconnect ↔ text.toList = "DISCONNECT".toList) ∧
      (∀ s, ofLine line = .invalid s ↔
        s = text ∧ ¬(text = "" ∨ text.toList.head? = some '#') ∧
          ∀ command, ¬Spells command text.toList) ∧
      ∀ key, ofLine line = .subscribe key ∨ ofLine line = .unsubscribe key →
        ∀ r, r = Request.subscribe key ∨ r = Request.unsubscribe key →
          ∃ frame, r.encode = .ok frame := by
  intro text
  simp only [← isSilent_iff]
  refine ⟨trim_spec line, LineGrammar.read_eq_empty_iff (g := grammar), fun key => ?_,
    fun key => ?_, fun time => ?_, ?_, fun s => LineGrammar.read_eq_invalid_iff (g := grammar),
    fun key h r => exists_encode_of_ofLine h⟩
  · exact @ofLine_eq_iff line (.subscribe key) nofun nofun
  · exact @ofLine_eq_iff line (.unsubscribe key) nofun nofun
  · exact @ofLine_eq_iff line (.delay time) nofun nofun
  · exact @ofLine_eq_iff line .disconnect nofun nofun

end KeyWatch.Client.Command
