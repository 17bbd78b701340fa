import KeyWatch.Text.Blank

/-!
# Tokens of a command line

The tokens that the command languages share, each taken from the start of some characters: a fixed
word, a gap of spaces and tabs, a field, which is a run of characters of a class, and a number. A
token gives what it holds and the characters behind it, or nothing where it does not stand. A token
is as long as it can be; a limit on a field or number is checked of the whole run, so a run beyond
the limit is no token at all.
-/

namespace KeyWatch.Text

/-- The characters behind a gap of spaces and tabs (`isSpaceOrTab`) that may be empty. -/
def skipGap (cs : List Char) : List Char := cs.dropWhile isSpaceOrTab

/-- The characters behind a gap of spaces and tabs that may not be empty, or `none` where no gap
stands. -/
def gap? : List Char → Option (List Char)
  | c :: rest => if isSpaceOrTab c then some (skipGap rest) else none
  | [] => none

/-- The characters behind a fixed word, or `none` where the word does not stand at the start. -/
def word? : (word : List Char) → List Char → Option (List Char)
  | [], cs => some cs
  | w :: word, c :: cs => if w = c then word? word cs else none
  | _ :: _, [] => none

/-- The longest run of characters of the class `inField` and what stands behind it, or `none` if the
run is empty or longer than `limit` bytes. Operation: `field`. -/
def field? (inField : Char → Bool) (limit : Nat) (cs : List Char) : Option (String × List Char) :=
  let text := String.ofList (cs.takeWhile inField)
  if text.utf8ByteSize = 0 ∨ limit < text.utf8ByteSize then none
  else some (text, cs.dropWhile inField)

/-- The number that some digits spell in decimal, the first digit counting most. -/
def digitsValue (digits : List Char) : Nat :=
  digits.foldl (fun n c => 10 * n + (c.toNat - '0'.toNat)) 0

/-- The number that the longest run of digits spells, and what stands behind the run, or `none` if
there are no digits or the number is `limit` or more. -/
def number? (limit : Nat) (cs : List Char) : Option (Nat × List Char) :=
  let digits := cs.takeWhile Char.isDigit
  if digits.isEmpty ∨ limit ≤ digitsValue digits then none
  else some (digitsValue digits, cs.dropWhile Char.isDigit)

/-- The token that stands behind a word and a gap (`word?`, `gap?`), and what stands behind the
token. -/
def argument? {α : Type} (word : String) (token : List Char → Option (α × List Char))
    (cs : List Char) : Option (α × List Char) := do
  token (← gap? (← word? word.toList cs))

/-- Whether a trimmed line has nothing to say: it is empty, or it is a comment, which starts with a
`#`. -/
def isSilent (line : String) : Bool :=
  match line.toList with
  | [] => true
  | c :: _ => c == '#'

/-- What a scanner finds if it takes a text to its end, but for a gap behind it (`skipGap`), and
`none` otherwise. -/
def whole? {α : Type} (scan : List Char → Option (α × List Char)) (text : String) : Option α :=
  match scan text.toList with
  | some (found, rest) => if (skipGap rest).isEmpty then some found else none
  | none => none

/-- The command of a line, with the blanks at its ends cut off (`trim`): `empty` for a line with
nothing to say (`isSilent`), what `read?` makes of the line, or `invalid` of it. Operations:
`parse_line`, `parse_client_command`. -/
def readLine {α : Type} (empty : α) (invalid : String → α) (read? : String → Option α)
    (line : String) : α :=
  let line := trim line
  if isSilent line then empty else (read? line).getD (invalid line)

/-- Behind `skipGap` stand no more characters than before it. -/
theorem length_skipGap_le (cs : List Char) : (skipGap cs).length ≤ cs.length := by
  induction cs with
  | nil => simp [skipGap]
  | cons c rest ih =>
    simp only [skipGap] at ih ⊢
    rw [List.dropWhile_cons]
    split
    · exact Nat.le_succ_of_le ih
    · exact Nat.le_refl _

/-- Behind `word?` stand no more characters than before it. -/
theorem length_of_word? {word cs rest : List Char} (h : word? word cs = some rest) :
    rest.length ≤ cs.length := by
  induction word generalizing cs with
  | nil => cases h; exact Nat.le_refl _
  | cons w word ih =>
    cases cs with
    | nil => simp [word?] at h
    | cons c cs =>
      simp only [word?] at h
      split at h
      · exact Nat.le_succ_of_le (ih h)
      · cases h

/-- Behind `field?` stand fewer characters than before it, since a field is not empty. A loop that
reads fields one after another comes to an end by this. -/
theorem length_of_field? {inField : Char → Bool} {limit : Nat} {cs rest : List Char} {text : String}
    (h : field? inField limit cs = some (text, rest)) : rest.length < cs.length := by
  simp only [field?] at h
  split at h
  · cases h
  · next hsize =>
    cases h
    have hlen := congrArg List.length (List.takeWhile_append_dropWhile (p := inField) (l := cs))
    have hpos : 0 < (cs.takeWhile inField).length := by
      rw [Nat.pos_iff_ne_zero, ne_eq, List.length_eq_zero_iff]
      intro hnil
      exact hsize (.inl (by rw [hnil]; rfl))
    simp only [List.length_append] at hlen
    omega

end KeyWatch.Text
