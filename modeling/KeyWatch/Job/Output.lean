import KeyWatch.Table.Bucket

/-!
# The output of jobs

How the results of commands are written: the values read, the keys that were not there to delete,
and the entries of the table, one a line. An entry's line is also its line in a backup.
-/

namespace KeyWatch.Job

/-- Two texts in parentheses with a separator between them, of which all output is made. -/
def pairText (first separator second : String) : String :=
  "(" ++ first ++ separator ++ second ++ ")"

/-- What stands for the value of a key that has none (`formatRead`). A key may have this very
value. -/
def noValue : String := "KVSERROR"

/-- What stands beside a key that was not there to delete (`formatDelete`). -/
def notThere : String := "KVSMISSING"

/-- The announcement of a pause, which is flushed at once (`Engine.announce`). -/
def waiting : String := "Waiting...\n"

/-- The usage of the commands, which goes to the console. -/
def helpText : String :=
  "Available commands:\n" ++
  "  WRITE [(key,value)(key2,value2),...]\n" ++
  "  READ [key,key2,...]\n" ++
  "  DELETE [key,key2,...]\n" ++
  "  SHOW\n" ++
  "  WAIT <delay_ms>\n" ++
  "  BACKUP\n" ++
  "  HELP\n"

/-- The values read, each with its key, in brackets on a line; a key without value has `noValue`.
Operation: `format_read`. -/
def formatRead (results : List (String × Option String)) : String :=
  "[" ++ String.join (results.map fun (key, value) => pairText key "," (value.getD noValue)) ++
    "]\n"

/-- The keys that were not there to delete, in brackets on a line, or `none` if all were there.
Operation: `format_delete`. -/
def formatDelete (results : List (String × DeleteOutcome)) : Option String :=
  let missing := String.join ((results.filter (·.2 == .missing)).map fun (key, _) =>
    pairText key "," notThere)
  if missing.isEmpty then none else some ("[" ++ missing ++ "]\n")

/-- The line of an entry, in the output and in a snapshot. Operation: `format_entry`. -/
def formatEntry (key value : String) : String := pairText key ", " value ++ "\n"

/-- The lines of some entries, one after another (`formatEntry`). Operation: `format_show`. -/
def formatShow (entries : List Entry) : String :=
  String.join (entries.map fun e => formatEntry e.key e.value)

end KeyWatch.Job
