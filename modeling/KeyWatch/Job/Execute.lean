import KeyWatch.Engine
import KeyWatch.Job.Command
import KeyWatch.Job.State

/-!
# Executing commands

A command changes the table and writes what it has to say to the job's output. A key that is missing
is said there and is no error; only an output that cannot be written is. The usage goes to the
console. A pause is announced at once, so its announcement is flushed.
-/

namespace KeyWatch

/-- What became of a command: the error, what a flush of the output emitted, the output, the job and
the store after it. -/
structure Execution where
  error : Option Error
  emitted : Option Bytes
  out : Sink
  job : Job.State
  engine : Engine

namespace Engine

/-- Writes a text to a job's output without a flush, so that a failure to write is the only
error. -/
def print (e : Engine) (text : String) (job : Job.State) (out : Sink) : Execution :=
  let (fault, out) := out.write (Utf8.encode text)
  ⟨fault.map .io, none, out, job, e⟩

/-- Writes a text to a job's output and flushes it, so that it is there before the pause begins. -/
def announce (e : Engine) (text : String) (job : Job.State) (out : Sink) : Execution :=
  match out.write (Utf8.encode text) with
  | (some fault, out) => ⟨some (.io fault), none, out, job, e⟩
  | (none, out) => ⟨out.flushOutcome.map .io, some out.pending, out.advance, job, e⟩

/-- Executes a command of a job on the store: a batch on the table (`Table.writeMany`,
`Table.readMany`, `Table.deleteMany`), the output of its results, a pause, a backup, or the usage on
the console. Operation: `execute`. -/
def execute (command : Job.Command) (job : Job.State) (out : Sink) (e : Engine) : Execution :=
  match command with
  | .write pairs => ⟨none, none, out, job, (e.apply (·.writeMany pairs)).2⟩
  | .read keys => e.print (Job.formatRead (e.table.readMany keys)) job out
  | .delete keys =>
    let (outcomes, e) := e.apply (·.deleteMany keys)
    match Job.formatDelete outcomes with
    | some text => e.print text job out
    | none => ⟨none, none, out, job, e⟩
  | .show => e.print (Job.formatShow e.table.snapshot) job out
  | .wait 0 => ⟨none, none, out, job, e⟩
  | .wait _ => e.announce Job.waiting job out
  | .backup =>
    let (number, job) := job.nextBackup
    ⟨none, none, out, job, e.backup (job.backupPath number)⟩
  | .help => ⟨none, none, out, job, { e with console := e.console ++ Job.helpText }⟩
  | .empty | .invalid _ => ⟨none, none, out, job, e⟩

end Engine

end KeyWatch
