import KeyWatch.Job.Runner

/-!
# The command line

Runs the job on standard input, line by line: what a command puts out or prints goes to standard
output as soon as it is there, and the first error ends the run. Backups are made in memory, and
when the job has ended they follow, each under the name of its file.
-/

namespace KeyWatch.CommandLine

/-- The directory of the job, in which its backups are made. -/
def directory : Path := .ofString "job"

/-- An empty store whose files are those of an empty directory (`FileSystem.bare`). -/
def store : Engine := .ofFiles 2 (FileSystem.bare.addOrKeep directory .directory)

/-- The bytes of a stream up to its end, behind those that were read before. -/
partial def readAll (input : IO.FS.Stream) (before : ByteArray) : IO ByteArray := do
  let piece ← input.read 4096
  if piece.isEmpty then return before else readAll input (before ++ piece)

/-- Writes a text to standard output at once. -/
def put (text : String) : IO Unit := do
  let out ← IO.getStdout
  out.putStr text
  out.flush

/-- What a command put out and printed, as text (`Utf8.lossy`). -/
def shown (done : Execution) : String :=
  Utf8.lossy (done.emitted.getD [] ++ done.out.pending) ++ done.engine.console

/-- Executes lines one after another (`Engine.execute`), up to the first error. A pause is one in
time. -/
def run : List Bytes → Job.State → Engine → IO (Option Error × Engine)
  | [], _, e => return (none, e)
  | line :: rest, job, e => do
    let command := Job.Command.ofBytes line
    let done := { e with console := "" }.execute command job {}
    put (shown done)
    if let .wait time := command then IO.sleep time.toUInt32
    match done.error with
    | some error => return (some error, done.engine)
    | none => run rest done.job done.engine

/-- Writes the backups to standard output, each under the name of its file. -/
def putBackups (e : Engine) : IO Unit := do
  for (name, file) in e.files.listing directory do
    if let .content bytes := file then
      put (Utf8.lossy name ++ ":\n" ++ Utf8.lossy bytes)

/-- Runs the job on standard input under a name, and gives the first error, of the run or else of a
backup (`Engine.waitForBackups`). -/
def runInput (name : String) : IO (Option Error) := do
  let content ← readAll (← IO.getStdin) .empty
  let (error, e) ← run (Job.lines content.data.toList) (.start name directory) store
  let (failure, e) := e.waitForBackups
  putBackups e
  return error <|> failure

end KeyWatch.CommandLine

/-- Runs the job on standard input under the name given (`CommandLine.runInput`), and gives 1 if
anything failed. -/
def main (args : List String) : IO UInt32 := do
  match ← KeyWatch.CommandLine.runInput (args.headD "job") with
  | none => return 0
  | some error =>
    IO.eprintln error.message
    return 1
