import KeyWatch.Backup.Snapshot

/-!
# Snapshots on a disk that fails

A disk may take less of a write than it is given, and refuse it altogether; its script says how
(`Allowance`), write by write. It may also fail when it is told to keep what it took (`Disk`). What
a writer does about it depends on how far it got. One that cannot write an entry is given up, and
its file is removed. One that cannot finish is not: it is no longer a writer to be given up, and its
file stays (`SnapshotWriter.finishOn`).
-/

namespace KeyWatch

/-- What a disk does with the next writes, write by write, and its failure to keep what it took, if
it fails. The disk without script and fault is the one of `writeSnapshot`. -/
structure Disk where
  script : List Allowance := []
  syncFault : Option IoFault := none
  deriving DecidableEq, Repr

/-- What became of bytes on their way to a file: the failure, if any, what the disk does with the
writes after it, the file with the bytes that still wait, and the file system. -/
structure Written where
  fault : Option IoFault
  script : List Allowance
  file : BufferedFile
  files : FileSystem

/-- The failure of a buffer whose file takes nothing, which has a wording of its own instead of that
of `writeZero`. -/
def bufferFault (fault : IoFault) : IoFault :=
  if fault = writeZero then ⟨.writeZero, "failed to write the buffered data"⟩ else fault

namespace BufferedFile

/-- Writes the buffer to the file, as far as the disk takes it (`offer`); the rest stays in the
buffer. -/
def flushOn (script : List Allowance) (f : BufferedFile) (fs : FileSystem) : Written :=
  let offered := offer f.buffer script
  { fault := offered.fault.map bufferFault
    script := offered.script
    file := ⟨{ f.cursor with offset := f.cursor.offset + offered.taken.length },
      f.buffer.drop offered.taken.length⟩
    files := fs.writeAt f.cursor.node f.cursor.offset offered.taken }

/-- Writes bytes past the buffer, as far as the disk takes them (`offer`); the rest is lost. -/
def putOn (b : Bytes) (script : List Allowance) (f : BufferedFile) (fs : FileSystem) : Written :=
  let offered := offer b script
  { fault := offered.fault
    script := offered.script
    file := { f with
      cursor := { f.cursor with offset := f.cursor.offset + offered.taken.length } }
    files := fs.writeAt f.cursor.node f.cursor.offset offered.taken }

/-- Writes bytes, into the buffer if they fit, behind what is there (`flushOn`). What does not fit
into an empty buffer goes past it (`putOn`). -/
def writeOn (b : Bytes) (script : List Allowance) (f : BufferedFile) (fs : FileSystem) : Written :=
  let first :=
    if capacity < f.buffer.length + b.length then f.flushOn script fs else ⟨none, script, f, fs⟩
  match first.fault with
  | some _ => first
  | none =>
    if capacity ≤ b.length then first.file.putOn b first.script first.files
    else { first with file := { first.file with buffer := first.file.buffer ++ b } }

end BufferedFile

namespace SnapshotWriter

/-- Writes entries one after another until the disk fails, whose failure is then that of the
snapshot. Operation: `write_entry`. -/
def writeEntriesOn : List Entry → List Allowance → SnapshotWriter → FileSystem →
    Option Error × List Allowance × SnapshotWriter × FileSystem
  | [], script, w, fs => (none, script, w, fs)
  | e :: rest, script, w, fs =>
    let written := w.file.writeOn (Utf8.encode (Job.formatEntry e.key e.value)) script fs
    let w := { w with file := written.file }
    match written.fault with
    | some fault => (some (.io fault), written.script, w, written.files)
    | none => writeEntriesOn rest written.script w written.files

/-- Flushes the file, has the disk keep it, and gives it the target's place, up to the first of
these that fails. The writer is spent either way, so the file beside the target stays behind a
failure. Operation: `finish`. -/
def finishOn (disk : Disk) (w : SnapshotWriter) (fs : FileSystem) : Option Error × FileSystem :=
  let flushed := w.file.flushOn disk.script fs
  match flushed.fault with
  | some fault =>
    -- the buffer tries once more when it goes, and nobody is told how that went
    let last := flushed.file.flushOn flushed.script flushed.files
    (some (.backup (.flushing fault)), last.files)
  | none =>
    match disk.syncFault with
    | some fault => (some (.io fault), flushed.files)
    | none =>
      match flushed.files.rename w.beside w.target with
      | .ok fs => (none, fs)
      | .error fault => (some (.io fault.io), flushed.files)

/-- Gives the snapshot up: the buffer tries once more, and then the file beside the target is
removed. Operation: `drop`. -/
def discardOn (script : List Allowance) (w : SnapshotWriter) (fs : FileSystem) : FileSystem :=
  let fs := (w.file.flushOn script fs).files
  match fs.unlink w.beside with
  | .ok fs => fs
  | .error _ => fs

end SnapshotWriter

/-- Writes entries to a snapshot file on a disk. A failure to write an entry gives the snapshot up
(`SnapshotWriter.discardOn`), a failure to finish it does not. Operation: `write_snapshot`. -/
def writeSnapshotOn (disk : Disk) (target : Path) (entries : List Entry) (fs : FileSystem) :
    Option Error × FileSystem :=
  match SnapshotWriter.create target fs with
  | .error e => (some e, fs)
  | .ok (w, fs) =>
    match SnapshotWriter.writeEntriesOn entries disk.script w fs with
    | (some e, script, w, fs) => (some e, w.discardOn script fs)
    | (none, script, w, fs) => w.finishOn { disk with script } fs

end KeyWatch
