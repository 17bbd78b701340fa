import KeyWatch.Files.System

/-!
# Settings

The settings of a store, their defaults, and what is checked of them before a store is opened. Of
several faults the first in the order of the checks is reported.
-/

namespace KeyWatch

/-- The settings of a store, each with its default. What is checked of them before a store is opened
is `Config.fault?`. -/
structure Config where
  /-- the directory of the jobs -/
  jobsDirectory : Path := .ofString "./jobs"
  /-- how many jobs run at a time -/
  maxThreads : Nat := 4
  /-- how many backups are written at a time -/
  maxBackups : Nat := 2
  /-- the pipe on which clients register -/
  registerPipe : Path := .ofString "/tmp/pipekv_register"
  /-- how many clients are served at a time, and how many wait -/
  maxSessions : Nat := 8
  deriving DecidableEq, Repr

namespace Config

/-- The version that the store tells of itself. -/
def version : String := "0.1.0"

/-- The first fault of the settings in the order of the checks, if there is one: a number of
threads, backups or sessions that is zero, or a jobs directory that is no directory. Operation:
`validate`. -/
def fault? (c : Config) (fs : FileSystem) : Option ConfigFault :=
  if c.maxThreads = 0 then some (.zero "max_threads")
  else if c.maxBackups = 0 then some (.zero "max_backups")
  else if c.maxSessions = 0 then some (.zero "max_sessions")
  else if !fs.isDirectory c.jobsDirectory then some (.noJobsDirectory c.jobsDirectory.shown)
  else none

end Config

end KeyWatch
