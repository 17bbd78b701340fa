import KeyWatch.Files.System
import KeyWatch.Pipe.Sink

/-!
# Buffered writing

A file that is written through a buffer: small writes gather in the buffer and go to the file when
the next does not fit, when the buffer is flushed, and when the writer goes.
-/

namespace KeyWatch

/-- A place in a file, and the bytes that wait to be written there until `BufferedFile.flush`. -/
structure BufferedFile where
  cursor : FileCursor
  buffer : Bytes
  deriving DecidableEq, Repr

namespace BufferedFile

/-- The size of the buffer, in bytes. A write of as many bytes or more goes past it. -/
def capacity : Nat := 8192

/-- The writer of a file from its start, with nothing in the buffer. -/
def ofFile (number : Nat) : BufferedFile := ⟨⟨number, 0⟩, []⟩

/-- Writes the buffer to the file and moves the place behind it. -/
def flush (f : BufferedFile) (fs : FileSystem) : BufferedFile × FileSystem :=
  (⟨{ f.cursor with offset := f.cursor.offset + f.buffer.length }, []⟩,
    fs.writeAt f.cursor.node f.cursor.offset f.buffer)

/-- Writes bytes into the buffer. What is there goes to the file first if they do not fit
(`BufferedFile.flush`), and so do they themselves if they would fill it. -/
def write (b : Bytes) (f : BufferedFile) (fs : FileSystem) : BufferedFile × FileSystem :=
  let (f, fs) := if capacity < f.buffer.length + b.length then f.flush fs else (f, fs)
  let f := { f with buffer := f.buffer ++ b }
  if capacity ≤ b.length then f.flush fs else (f, fs)

end BufferedFile

end KeyWatch
