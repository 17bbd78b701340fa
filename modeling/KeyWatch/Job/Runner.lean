import KeyWatch.Job.Execute

/-!
# Running job files

A job file is run line by line, and its output goes to the file with the extension `out` beside it.
Backups are named for the job and go beside it, too. A line that is not text is an invalid command,
as is any line that no command takes; neither keeps the job from going on.

Every job file of a directory is run (`Engine.runJobs`). A job that fails keeps no other from
running.
-/

namespace KeyWatch

namespace Job

/-- The lines of a text, without the line feeds that separate them. -/
def lines (content : Bytes) : List Bytes := content.splitOn 0x0A

/-- Whether a path names a job file, by its extension and by being a file. Operation:
`is_job_file`. -/
def isJobFile (fs : FileSystem) (p : Path) : Bool :=
  p.extension? == some (Utf8.encode "job") && fs.isFile p

/-- The directory of a job's backups, which is that of the job's file, or the working directory. -/
def directoryOf (p : Path) : Path := p.parent?.getD (.ofString ".")

end Job

namespace Engine

/-- Lets what a job's output emitted go to the output's file (`Engine.emitAll`). -/
def emitOutput (e : Engine) (out : Sink) (emitted : Option Bytes) : Engine :=
  e.emitAll (emitted.toList.map fun bytes => ⟨out.line (.response ""), bytes⟩)

/-- Executes the commands of a job's lines (`Engine.execute`), up to the first error. Backups are
written on the side, and before each line some of them may complete (`Engine.completeBackups`):
which they are is given line by line, and it is none where nothing is given. -/
def executeLines : List (List Nat) → List Bytes → Job.State → Sink → Engine →
    Option Error × Sink × Engine
  | _, [], _, out, e => (none, out, e)
  | completions, line :: rest, job, out, e =>
    let done := (e.completeBackups (completions.headD [])).execute (.ofBytes line) job out
    let e := done.engine.emitOutput out done.emitted
    match done.error with
    | some error => (some error, done.out, e)
    | none => executeLines completions.tail rest done.job done.out e

/-- Runs the lines of a job (`Engine.executeLines`), with its output in a file from the file's
start. What the output still holds at the end goes to the file, also behind an error. -/
def runLines (completions : List (List Nat)) (lines : List Bytes) (job : Job.State) (output : Nat)
    (e : Engine) : Option Error × Engine :=
  let (error, out, e) := executeLines completions lines job { cursor := some ⟨output, 0⟩ } e
  (error, e.emitOutput out out.remainder)

/-- Runs a job file, while backups complete as they are given line by line (`Engine.runLines`). Its
output file is made before the first line is read. Operation: `run_job`. -/
def runJobAmid (completions : List (List Nat)) (p : Path) (e : Engine) : Option Error × Engine :=
  match p.fileStem? with
  | none => (some (.config (.badJobName p.shown)), e)
  | some stem =>
    match e.files.openRead p with
    | .error fault => (some (.io fault.io), e)
    | .ok input =>
      match e.files.create (p.withExtension "out") with
      | .error fault => (some (.io fault.io), e)
      | .ok (output, files) =>
        let e := { e with files }
        match input with
        | .file number =>
          let job := Job.State.start (Utf8.lossy stem) (Job.directoryOf p)
          e.runLines completions (Job.lines (files.content number)) job output
        | .directory => (some (.io FileFault.isDirectory.io), e)
        | .fifo => (none, e)

/-- Runs a job file (`Engine.runJobAmid`) while no backup completes before another one has to wait
for its slot. -/
def runJob (p : Path) (e : Engine) : Option Error × Engine := e.runJobAmid [] p

/-- Runs job files one after another (`Engine.runJob`); a job that fails keeps no other from
running. -/
def runEach (paths : List Path) (e : Engine) : Engine := paths.foldl (fun e p => (e.runJob p).2) e

/-- Runs every job file of a directory (`Job.isJobFile`), with some threads, and counts them.
Operation: `run` of the jobs. -/
def runJobs (directory : Path) (threads : Nat) (e : Engine) : Except Error (Nat × Engine) :=
  match e.files.list directory with
  | .error fault => .error (.config (.unreadableJobs directory.shown fault.io))
  | .ok entries =>
    if threads = 0 then .ok (0, e)
    else
      let paths := (entries.map fun (name, _) => directory.join ⟨name⟩).filter
        (Job.isJobFile e.files)
      .ok (paths.length, e.runEach paths)

end Engine

end KeyWatch
