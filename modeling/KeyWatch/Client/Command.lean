import KeyWatch.Error
import KeyWatch.Text.Scan
import KeyWatch.Wire.Field

/-!
# Client commands

A client is driven by lines of one command each: to subscribe to a key or end the subscription, to
pause, or to disconnect. The key stands in square brackets, with or without spaces and tabs around
it. As with jobs, every line is a command (`ofLine`).
-/

namespace KeyWatch.Client

/-- A line of client input. Every line is one, if only an empty or an invalid command
(`Command.ofLine`). -/
inductive Command where
  | subscribe (key : String)
  | unsubscribe (key : String)
  /-- a pause of some milliseconds -/
  | delay (time : Nat)
  | disconnect
  /-- a blank line or a comment -/
  | empty
  /-- a line that is no command -/
  | invalid (line : String)
  deriving DecidableEq, Repr

/-- The delays of a pause stay below this, and a larger number is no delay. -/
def delayLimit : Nat := UInt64.size

namespace Command

open Text

/-- Whether a character may stand in a key. Other than in a job (`Job.Command.isFieldChar`) it may
be a parenthesis. -/
def isKeyChar (c : Char) : Bool := c != '[' && c != ']' && c != ',' && !isBlank c

/-- A key in brackets with gaps around it, and what is left behind the brackets. Operation:
`bracketed_key`. -/
def bracketedKey? (cs : List Char) : Option (String × List Char) := do
  let cs ← word? ['['] cs
  let (key, cs) ← field? isKeyChar maxTextSize (skipGap cs)
  let cs ← word? [']'] (skipGap cs)
  return (key, cs)

/-- The first command that fits at the start, and what is left behind it. Operation:
`client_command`. -/
def scan (cs : List Char) : Option (Command × List Char) :=
  ((argument? "SUBSCRIBE" bracketedKey? cs).map fun (key, rest) => (subscribe key, rest))
  <|> ((argument? "UNSUBSCRIBE" bracketedKey? cs).map fun (key, rest) => (unsubscribe key, rest))
  <|> ((argument? "DELAY" (number? delayLimit) cs).map fun (time, rest) => (delay time, rest))
  <|> ((word? "DISCONNECT".toList cs).map fun rest => (disconnect, rest))

/-- The command on a line (`Text.readLine`), which takes all of the line. Operation:
`parse_client_command`. -/
def ofLine (line : String) : Command := readLine empty invalid (whole? scan) line

end Command

end KeyWatch.Client
