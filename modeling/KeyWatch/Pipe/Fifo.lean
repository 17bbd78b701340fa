import KeyWatch.Files.System

/-!
# Named pipes

How the named pipes are made, opened and removed. A pipe that is left over gives way to a new one,
and nothing else does. A pipe that is not there need not be removed. Opening waits for the other
side, so what it gives for a pipe is that it is one.
-/

namespace KeyWatch.Fifo

/-- Why a pipe is not made when something that is none stands in its place (`Fifo.makeWay`). -/
def inTheWay (p : Path) : Error := .transport (.notFifo p.shown)

/-- Makes way for a pipe: a pipe that is left over is removed, and anything else is in the way. -/
def makeWay (p : Path) (fs : FileSystem) : Except Error FileSystem :=
  match fs.entry? p with
  | none => .ok fs
  | some .fifo => (fs.unlink p).mapError fun fault => .ofIo fault.io "unlinking stale FIFO"
  | some _ => .error (inTheWay p)

/-- Makes a pipe at a path, in place of one that is left over (`Fifo.makeWay`). Operation:
`create_fifo`. -/
def create (p : Path) (fs : FileSystem) : Except Error FileSystem := do
  let fs ← makeWay p fs
  if p.bytes.contains 0 then .error (.transport (.nulInPath p.shown))
  else (fs.add p .fifo).mapError fun fault => .ofIo fault.io ("creating FIFO " ++ p.shown)

/-- Removes a pipe, or whatever a path names but a directory. What is not there need not be removed.
Operation: `unlink_fifo`. -/
def unlink (p : Path) (fs : FileSystem) : Except Error FileSystem :=
  match fs.unlink p with
  | .ok fs => .ok fs
  | .error .noEntry => .ok fs
  | .error fault => .error (.ofIo fault.io ("unlinking " ++ p.shown))

/-- What a failure to open a path is as an error (`Error.ofIo`). -/
def openFault (p : Path) (fault : FileFault) : Error := .ofIo fault.io ("opening " ++ p.shown)

/-- Opens a pipe, or whatever a path leads to, to read. Operation: `open_read`. -/
def openRead (p : Path) (fs : FileSystem) : Except Error Opened :=
  (fs.openRead p).mapError (openFault p)

/-- Opens a pipe, or whatever a path leads to, to write. Operation: `open_write`. -/
def openWrite (p : Path) (fs : FileSystem) : Except Error Opened :=
  (fs.openWrite p).mapError (openFault p)

end KeyWatch.Fifo
