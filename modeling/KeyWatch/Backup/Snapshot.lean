import KeyWatch.Files.Buffered
import KeyWatch.Job.Output

/-!
# Snapshot files

A snapshot is written to a file beside its target, which then takes the target's place. So the
target is never half a snapshot: it is what it was, or the whole snapshot. A writer that is given up
removes the file beside the target; one that finishes does not look back, whether the last step
succeeded or not.
-/

namespace KeyWatch

/-- The writer of a snapshot: its target, the path beside it, and the file there. -/
structure SnapshotWriter where
  target : Path
  beside : Path
  file : BufferedFile
  deriving DecidableEq, Repr

namespace SnapshotWriter

/-- The extension of the file beside the target, in which a snapshot stands until it is finished. -/
def besideExtension : String := "bck.tmp"

/-- Starts a snapshot in an empty file beside the target; that the file cannot be made is a fault of
the backup. Operation: `create`. -/
def create (target : Path) (fs : FileSystem) : Except Error (SnapshotWriter × FileSystem) :=
  let beside := target.withExtension besideExtension
  match fs.create beside with
  | .error fault => .error (.backup (.creating beside.shown fault.io))
  | .ok (number, fs) => .ok (⟨target, beside, .ofFile number⟩, fs)

/-- Writes an entry as a line of the snapshot (`Job.formatEntry`), through the buffer. Operation:
`write_entry`. -/
def writeEntry (e : Entry) (w : SnapshotWriter) (fs : FileSystem) : SnapshotWriter × FileSystem :=
  let (file, fs) := w.file.write (Utf8.encode (Job.formatEntry e.key e.value)) fs
  ({ w with file }, fs)

/-- Writes entries one after another (`SnapshotWriter.writeEntry`). -/
def writeEntries : List Entry → SnapshotWriter → FileSystem → SnapshotWriter × FileSystem
  | [], w, fs => (w, fs)
  | e :: rest, w, fs =>
    let (w, fs) := w.writeEntry e fs
    writeEntries rest w fs

/-- Flushes the file and gives it the target's place (`FileSystem.rename`). A failure to do so
leaves the file beside the target. Operation: `finish`. -/
def finish (w : SnapshotWriter) (fs : FileSystem) : Option Error × FileSystem :=
  let fs := (w.file.flush fs).2
  match fs.rename w.beside w.target with
  | .ok fs => (none, fs)
  | .error fault => (some (.io fault.io), fs)

/-- Gives the snapshot up and removes the file beside the target. Operation: `drop`. -/
def discard (w : SnapshotWriter) (fs : FileSystem) : FileSystem :=
  let fs := (w.file.flush fs).2
  match fs.unlink w.beside with
  | .ok fs => fs
  | .error _ => fs

end SnapshotWriter

/-- Writes entries to a snapshot file that takes its target's place at the end, on a disk that fails
no write. One that may fail is that of `writeSnapshotOn`. Operation: `write_snapshot`. -/
def writeSnapshot (target : Path) (entries : List Entry) (fs : FileSystem) :
    Option Error × FileSystem :=
  match SnapshotWriter.create target fs with
  | .error e => (some e, fs)
  | .ok (w, fs) =>
    let (w, fs) := SnapshotWriter.writeEntries entries w fs
    w.finish fs

end KeyWatch
