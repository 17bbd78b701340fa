import KeyWatch.Pipe.Fifo
import KeyWatch.Wire.Registration

/-!
# The pipes of a client

A client owns three pipes, for its requests, the responses and the notifications, whose names are
made of its id. It makes them before it registers, all or none of them (`Paths.make`), and whatever
ends its connection removes them (`Paths.remove`).
-/

namespace KeyWatch.Client

/-- The paths of a client's three pipes, which the client makes and removes itself. -/
structure Paths where
  request : Path
  response : Path
  notification : Path
  deriving DecidableEq, Repr

namespace Paths

/-- The pipes of a client with an id, in a directory. Operation: `for_id`. -/
def ofId (dir : Path) (id : String) : Paths :=
  ⟨dir.join (.ofString ("req" ++ id)), dir.join (.ofString ("resp" ++ id)),
    dir.join (.ofString ("notif" ++ id))⟩

/-- The three paths, in the order in which the pipes are made and opened. Operation: `all`. -/
def all (p : Paths) : List Path := [p.request, p.response, p.notification]

/-- The registration of a client of an id with these pipes, whose words must all fit
(`Registration.encode`). -/
def registration (p : Paths) (id : String) : Registration :=
  ⟨p.request, p.response, p.notification, id⟩

/-- The file system without the pipes, as far as they can be removed (`Fifo.unlink`). Operation:
`unlink`. -/
def remove (p : Paths) (fs : FileSystem) : FileSystem :=
  p.all.foldl (fun fs path =>
    match Fifo.unlink path fs with
    | .ok fs => fs
    | .error _ => fs) fs

/-- Makes pipes one after another (`Fifo.create`), up to the first that cannot be made. -/
def makeEach : List Path → FileSystem → Option Error × FileSystem
  | [], fs => (none, fs)
  | path :: rest, fs =>
    match Fifo.create path fs with
    | .ok fs => makeEach rest fs
    | .error e => (some e, fs)

/-- Makes the pipes; where one cannot be made, none stays (`Paths.remove`). -/
def make (p : Paths) (fs : FileSystem) : Option Error × FileSystem :=
  match makeEach p.all fs with
  | (none, fs) => (none, fs)
  | (some e, fs) => (some e, p.remove fs)

/-- How many of the pipes are there, be they pipes or not. -/
def left (p : Paths) (fs : FileSystem) : Nat := p.all.countP fun path => (fs.entry? path).isSome

end Paths

end KeyWatch.Client
