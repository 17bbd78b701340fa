import KeyWatch.Path

/-!
# Running jobs

A job that runs has a name, a directory for its backups, and counts the backups it has taken. The
backups are numbered from one, and the number is part of the file's name (`backupPath`).
-/

namespace KeyWatch.Job

/-- A job that runs: its name, the directory of its backups, and how many it has taken. -/
structure State where
  name : String
  directory : Path
  backups : Nat
  deriving DecidableEq, Repr

/-- The path of a backup of a job, named by the job and the number of the backup. Operation:
`backup_path`. -/
def backupPath (directory : Path) (name : String) (number : Nat) : Path :=
  directory.join (.ofString (name ++ "-" ++ toString number ++ ".bck"))

namespace State

/-- A job that has taken no backup. Operation: `new`. -/
def start (name : String) (directory : Path) : State := ⟨name, directory, 0⟩

/-- The number of the next backup, counted from one, and the job with that backup more. Operation:
`next_backup`. -/
def nextBackup (s : State) : Nat × State := (s.backups + 1, { s with backups := s.backups + 1 })

/-- The path of the job's backup of some number (`Job.backupPath`). -/
def backupPath (s : State) (number : Nat) : Path := Job.backupPath s.directory s.name number

end State

end KeyWatch.Job
