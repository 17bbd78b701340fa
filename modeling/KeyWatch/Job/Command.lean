import KeyWatch.Error
import KeyWatch.Text.Scan
import KeyWatch.Wire.Field

/-!
# Job commands

A job is a text of one command a line. A batch stands in square brackets: the pairs to write, each
in parentheses, one after another, or keys with commas between them. Spaces and tabs may stand
around a pair, a key or a value, and must stand between a command's word and what follows it.

Every line is a command (`Command.ofLine`): blank lines and comments are empty commands, and a line
that none of the commands takes whole is invalid.
-/

namespace KeyWatch.Job

/-- A line of a job. Every line is one, if only an empty or an invalid command
(`Command.ofLine`). -/
inductive Command where
  | write (pairs : List (String × String))
  | read (keys : List String)
  | delete (keys : List String)
  | «show»
  /-- a pause of some milliseconds -/
  | wait (delay : Nat)
  | backup
  | help
  /-- a blank line or a comment -/
  | empty
  /-- a line that is no command -/
  | invalid (line : String)
  deriving DecidableEq, Repr

/-- The number of items in the largest batch that `Command.bracketed?` takes. -/
def maxBatchSize : Nat := 256

/-- The delays of a pause stay below this, and a larger number is no delay. -/
def delayLimit : Nat := UInt64.size

namespace Command

open Text

/-- Whether a character may stand in a key or value: no bracket, parenthesis or comma, and no
blank. -/
def isFieldChar (c : Char) : Bool :=
  c != '[' && c != ']' && c != '(' && c != ')' && c != ',' && !isBlank c

/-- A key or value with the gaps around it, and what is left behind it. Operations: `field` and
`ws`. -/
def spacedField? (cs : List Char) : Option (String × List Char) := do
  let (text, rest) ← field? isFieldChar maxTextSize (skipGap cs)
  return (text, skipGap rest)

/-- A pair of a key and a value in parentheses, and what is left behind it. Operation: `pair`. -/
def pair? (cs : List Char) : Option ((String × String) × List Char) := do
  let cs ← word? ['('] cs
  let (key, cs) ← spacedField? cs
  let cs ← word? [','] cs
  let (value, cs) ← spacedField? cs
  let cs ← word? [')'] cs
  return ((key, value), cs)

/-- A pair with the gaps around it (`pair?`), and what is left behind it. -/
def spacedPair? (cs : List Char) : Option ((String × String) × List Char) := do
  let (pair, rest) ← pair? (skipGap cs)
  return (pair, skipGap rest)

/-- Behind a field with its gaps stands less than before it, which lets `keysBehindCommas` come to
an end. -/
theorem length_of_spacedField? {cs rest : List Char} {text : String}
    (h : spacedField? cs = some (text, rest)) : rest.length < cs.length := by
  simp only [spacedField?, bind, Option.bind] at h
  split at h
  · cases h
  · next p hp =>
    obtain ⟨t, r⟩ := p
    cases h
    have h1 := length_of_field? hp
    have h2 := length_skipGap_le cs
    have h3 := length_skipGap_le r
    simp only at h1 ⊢
    omega

/-- Behind a pair stands less than before it, since its fields are not empty. -/
theorem length_of_pair? {cs rest : List Char} {pair : String × String}
    (h : pair? cs = some (pair, rest)) : rest.length < cs.length := by
  simp only [pair?, Option.bind_eq_bind, Option.bind_eq_some_iff] at h
  obtain ⟨c1, h1, ⟨k, c2⟩, h2, c3, h3, ⟨v, c4⟩, h4, c5, h5, h6⟩ := h
  cases h6
  have l1 := length_of_word? h1
  have l2 := length_of_spacedField? h2
  have l3 := length_of_word? h3
  have l4 := length_of_spacedField? h4
  have l5 := length_of_word? h5
  simp only at l2 l3 l4 l5
  omega

/-- Behind a pair with its gaps stands less than before it, which lets `pairs` come to an end. -/
theorem length_of_spacedPair? {cs rest : List Char} {pair : String × String}
    (h : spacedPair? cs = some (pair, rest)) : rest.length < cs.length := by
  simp only [spacedPair?, Option.bind_eq_bind, Option.bind_eq_some_iff] at h
  obtain ⟨⟨p, r⟩, h1, h2⟩ := h
  cases h2
  have l1 := length_of_pair? h1
  have l2 := length_skipGap_le cs
  have l3 := length_skipGap_le r
  simp only at l1 l3 ⊢
  omega

/-- The pairs at the start, as many as there are, one behind the other without commas between them,
and what is left. -/
def pairs (cs : List Char) : List (String × String) × List Char :=
  match h : spacedPair? cs with
  | none => ([], cs)
  | some (pair, rest) =>
    have := length_of_spacedPair? h
    let more := pairs rest
    (pair :: more.1, more.2)
termination_by cs.length

/-- The keys behind commas at the start, as many as there are, and what is left. A comma without a
key stays. -/
def keysBehindCommas (cs : List Char) : List String × List Char :=
  match h : (word? [','] cs).bind spacedField? with
  | none => ([], cs)
  | some (key, rest) =>
    have : rest.length < cs.length := by
      obtain ⟨c, h1, h2⟩ := Option.bind_eq_some_iff.1 h
      have l1 := length_of_word? h1
      have l2 := length_of_spacedField? h2
      omega
    let more := keysBehindCommas rest
    (key :: more.1, more.2)
termination_by cs.length

/-- A batch that is neither empty nor larger than `maxBatchSize`, behind an opening and before a
closing bracket. -/
def bracketed? {α : Type} (items : List Char → List α × List Char) (cs : List Char) :
    Option (List α × List Char) := do
  let cs ← word? ['['] cs
  let (batch, cs) := items cs
  if batch.isEmpty || maxBatchSize < batch.length then none
  let cs ← word? [']'] cs
  return (batch, cs)

/-- The keys at the start with commas between them (`keysBehindCommas`), and what is left.
Operation: `key_list`. -/
def keys (cs : List Char) : List String × List Char :=
  match spacedField? cs with
  | none => ([], cs)
  | some (key, rest) =>
    let more := keysBehindCommas rest
    (key :: more.1, more.2)

/-- A command that is its word alone, and what is left behind it. -/
def bare? (word : String) (command : Command) (cs : List Char) : Option (Command × List Char) :=
  (word? word.toList cs).map fun rest => (command, rest)

/-- The first command that fits at the start, and what is left behind it. Operation:
`command_parser`. -/
def scan (cs : List Char) : Option (Command × List Char) :=
  ((argument? "WRITE" (bracketed? pairs) cs).map fun (batch, rest) => (write batch, rest))
  <|> ((argument? "READ" (bracketed? keys) cs).map fun (batch, rest) => (read batch, rest))
  <|> ((argument? "DELETE" (bracketed? keys) cs).map fun (batch, rest) => (delete batch, rest))
  <|> ((argument? "WAIT" (number? delayLimit) cs).map fun (delay, rest) => (wait delay, rest))
  <|> bare? "SHOW" «show» cs
  <|> bare? "BACKUP" backup cs
  <|> bare? "HELP" help cs

/-- The command that a text is, but for spaces and tabs at its end, or the fault of a text that no
command starts or that goes on behind it. Operation: `parse_command`. -/
def parse (text : String) : Except ParseFault Command :=
  match scan text.toList with
  | none => .error (.noCommand text)
  | some (command, rest) =>
    let rest := skipGap rest
    if rest.isEmpty then .ok command else .error (.trailing (String.ofList rest))

/-- The command on a line (`Text.readLine`), of which the line takes all (`Command.parse`).
Operation: `parse_line`. -/
def ofLine (line : String) : Command :=
  readLine empty invalid (fun text => (parse text).toOption) line

/-- The command on a line of bytes; bytes that are no text are an invalid line, shown by
`Utf8.lossy`. Operation: `decode_line`. -/
def ofBytes (line : Bytes) : Command :=
  match Utf8.decode line with
  | .ok line => ofLine line
  | .error _ => invalid (trim (Utf8.lossy line))

end Command

end KeyWatch.Job
