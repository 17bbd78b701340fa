import KeyWatch.Error
import KeyWatch.OrderedMap
import KeyWatch.Path

/-!
# The file system

A file system says what stands at each place (`FileSystem.node?`): a directory, a file, a named pipe
or a link to a path. A file is a number, and its content is kept under the number, so it outlives
its name as long as somebody has it open.

A path is walked name by name from the root or from the working directory (`FileSystem.walk`). Every
name but the last must lead to a directory, and links are followed on the way; the last name may be
that of nothing yet. A path that ends in a slash can only name a directory.
-/

namespace KeyWatch

/-- The names that lead from the root to a place, none of which is `Path.here`, `Path.above` or that
of a link. -/
abbrev Location := List Bytes

/-- What stands at a place of a file system. The content of a file is kept under its number
(`FileSystem.contents`). -/
inductive Node where
  | directory
  | file (number : Nat)
  | fifo
  | link (target : Path)
  deriving DecidableEq, Repr

/-- Why a file operation fails, as far as an operation of `FileSystem` can fail that way. -/
inductive FileFault where
  | noEntry
  | busy
  | alreadyExists
  | notDirectory
  | isDirectory
  | invalidArgument
  | nameTooLong
  | notEmpty
  | tooManyLinks
  | nulInName
  deriving DecidableEq, Repr

/-- The wording of a `FileFault`, with the number under which the system reports it. -/
def FileFault.message : FileFault → String
  | noEntry => "No such file or directory (os error 2)"
  | busy => "Device or resource busy (os error 16)"
  | alreadyExists => "File exists (os error 17)"
  | notDirectory => "Not a directory (os error 20)"
  | isDirectory => "Is a directory (os error 21)"
  | invalidArgument => "Invalid argument (os error 22)"
  | nameTooLong => "File name too long (os error 36)"
  | notEmpty => "Directory not empty (os error 39)"
  | tooManyLinks => "Too many levels of symbolic links (os error 40)"
  | nulInName => "file name contained an unexpected NUL byte"

/-- The kind of a `FileFault`, by which `Error.ofIo` sorts it; none of them is an interruption or a
vanished peer. -/
def FileFault.kind : FileFault → IoKind
  | noEntry => .notFound
  | alreadyExists => .alreadyExists
  | invalidArgument | nulInName => .invalidInput
  | _ => .other

/-- A `FileFault` among all failures: its kind and its wording. -/
def FileFault.io (f : FileFault) : IoFault := ⟨f.kind, f.message⟩

/-- What stands where, the contents of the files by number, and the working directory, from which
relative paths are walked (`FileSystem.start`). -/
structure FileSystem where
  nodes : OrderedMap Location Node
  contents : List Bytes
  working : Location
  deriving DecidableEq

/-- Where a path leads (`FileSystem.slot`): the place, what stands there, and whether the path asks
for a directory by ending in a slash. -/
structure Place where
  location : Location
  node : Option Node
  asDirectory : Bool

/-- What a directory shows of an entry (`FileSystem.show`): of a file its content, of a pipe or link
only that it is neither file nor directory. -/
inductive Shown where
  | directory
  | content (bytes : Bytes)
  /-- neither a directory nor a file -/
  | special
  deriving DecidableEq, Repr

/-- What opening a path gives (`FileSystem.opening`); a file is known by its number from then on. -/
inductive Opened where
  | directory
  | file (number : Nat)
  /-- a named pipe, whose opening waits for the other side -/
  | fifo
  deriving DecidableEq, Repr

namespace FileSystem

/-- The size, in bytes, of the longest name that `FileSystem.walk` takes. -/
def maxNameSize : Nat := 255

/-- The size, in bytes, that no path reaches (`FileSystem.check`). -/
def pathSizeLimit : Nat := 4096

/-- The number of links that one `FileSystem.walk` may follow. -/
def maxLinks : Nat := 40

/-- The file system of a root with a directory of temporary files and a working directory, from
which the scenarios start. -/
def bare : FileSystem :=
  let working := [Utf8.encode "work"]
  ⟨(OrderedMap.empty.insert working .directory).insert [Utf8.encode "tmp"] .directory, [], working⟩

/-- What stands at a place, or `none`; at the root stands a directory in every file system. -/
def node? (fs : FileSystem) (l : Location) : Option Node :=
  if l.isEmpty then some .directory else fs.nodes.find? l

/-- The names in a path, which are the parts between its slashes that are not empty. -/
def names (p : Path) : List Bytes :=
  (p.bytes.splitOn Path.slash).filter (!·.isEmpty)

/-- Whether a path ends in a slash, and so can only name a directory (`FileSystem.place`). -/
def asksDirectory (p : Path) : Bool := p.bytes.getLast? == some Path.slash

/-- The names by which the target of a link is walked. Behind a trailing slash stands `Path.here`,
so the walk goes into the directory. -/
def targetNames (target : Path) : List Bytes :=
  if asksDirectory target then names target ++ [Path.here] else names target

/-- Where the walk of a path starts: at the root if the path is absolute, and else at the given
place. -/
def start (p : Path) (relative : Location) : Location := if p.isAbsolute then [] else relative

/-- The place to which names lead from a place, name by name, with the links that it meets followed.
The link that the last name may be is followed only if asked. The walk fails where a name is not in
a directory, is too long, or leads through more than `links` links. -/
def walk (fs : FileSystem) (follow : Bool) (links : Nat) (here : Location) (way : List Bytes) :
    Except FileFault Location :=
  match way with
  | [] => .ok here
  | name :: rest =>
    match fs.node? here with
    | none => .error .noEntry
    | some .directory =>
      if name = Path.here then walk fs follow links here rest
      else if name = Path.above then walk fs follow links here.dropLast rest
      else if maxNameSize < name.length then .error .nameTooLong
      else
        let place := here ++ [name]
        match fs.node? place with
        | some (.link target) =>
          if rest.isEmpty && !follow then .ok place
          else
            match links with
            | 0 => .error .tooManyLinks
            | links + 1 => walk fs follow links (start target here) (targetNames target ++ rest)
        | some .directory => walk fs follow links place rest
        | some _ => if rest.isEmpty then .ok place else .error .notDirectory
        | none => if rest.isEmpty then .ok place else .error .noEntry
    | some _ => .error .notDirectory
termination_by (links, way.length)

/-- Whether a path can be walked at all: it is not empty, not too long, and holds no NUL. -/
def check (p : Path) : Except FileFault Unit :=
  if p.bytes.contains 0 then .error .nulInName
  else if p.bytes.isEmpty then .error .noEntry
  else if pathSizeLimit ≤ p.bytes.length then .error .nameTooLong
  else .ok ()

/-- The directory in which the last name of a path is looked up, which `FileSystem.rename` looks for
before either name. -/
def holder (fs : FileSystem) (p : Path) : Except FileFault Location := do
  check p
  fs.walk true maxLinks (start p fs.working) ((names p).dropLast ++ [Path.here])

/-- Where the names of a path lead (`FileSystem.walk`), the last name's link being followed only if
asked. At that place something can be put, so it may be empty. -/
def slot (fs : FileSystem) (follow : Bool) (p : Path) : Except FileFault Place := do
  check p
  let location ← fs.walk follow maxLinks (start p fs.working) (names p)
  return ⟨location, fs.node? location, asksDirectory p⟩

/-- Where a path leads. A path that ends in a slash leads through a link, and to a directory
(`FileSystem.slot`). -/
def place (fs : FileSystem) (follow : Bool) (p : Path) : Except FileFault Place := do
  let place ← fs.slot (follow || asksDirectory p) p
  match place.node with
  | none | some .directory => return place
  | some _ => if place.asDirectory then .error .notDirectory else return place

/-- What a path leads to, through links, or `none` where it leads nowhere. -/
def find? (fs : FileSystem) (p : Path) : Option Node :=
  match fs.place true p with
  | .ok place => place.node
  | .error _ => none

/-- Whether a path leads to a directory, through links (`FileSystem.find?`). -/
def isDirectory (fs : FileSystem) (p : Path) : Bool := fs.find? p == some .directory

/-- Whether a path leads to a file, through links (`FileSystem.find?`). -/
def isFile (fs : FileSystem) (p : Path) : Bool :=
  match fs.find? p with
  | some (.file _) => true
  | _ => false

/-- What a path names, be it a link, which `FileSystem.find?` would follow. -/
def entry? (fs : FileSystem) (p : Path) : Option Node :=
  match fs.place false p with
  | .ok place => place.node
  | .error _ => none

/-- The file system with something put at a place, whatever stood there. -/
def put (fs : FileSystem) (l : Location) (node : Node) : FileSystem :=
  { fs with nodes := fs.nodes.insert l node }

/-- The file system with nothing at a place. The content of a file that stood there stays under its
number. -/
def clear (fs : FileSystem) (l : Location) : FileSystem :=
  { fs with nodes := fs.nodes.erase l }

/-- The content of a file by its number, which is empty for a number that no file has. -/
def content (fs : FileSystem) (number : Nat) : Bytes := (fs.contents[number]?).getD []

/-- The file system with the content of a file replaced; a number that no file has changes
nothing. -/
def setContent (fs : FileSystem) (number : Nat) (b : Bytes) : FileSystem :=
  { fs with contents := fs.contents.set number b }

/-- A content with bytes written over it from an offset on. Between its end and the offset stand
zeros. -/
def overwrite (content : Bytes) (offset : Nat) (b : Bytes) : Bytes :=
  content.take offset ++ List.replicate (offset - content.length) 0 ++ b ++
    content.drop (offset + b.length)

/-- Writes bytes into a file at an offset (`FileSystem.overwrite`); to write none changes nothing,
also beyond the end. -/
def writeAt (fs : FileSystem) (number offset : Nat) (b : Bytes) : FileSystem :=
  if b.isEmpty then fs else fs.setContent number (overwrite (fs.content number) offset b)

/-- What opening gives for what stands at a place, with links followed. A link that is left is one
too many. -/
def opening : Option Node → Except FileFault Opened
  | none => .error .noEntry
  | some .directory => .ok .directory
  | some (.file number) => .ok (.file number)
  | some .fifo => .ok .fifo
  | some (.link _) => .error .tooManyLinks

/-- Opens a path to read, be it a directory, a file or a pipe. -/
def openRead (fs : FileSystem) (p : Path) : Except FileFault Opened := do
  opening (← fs.place true p).node

/-- Opens a path to write into what is there, which a directory does not allow. -/
def openWrite (fs : FileSystem) (p : Path) : Except FileFault Opened := do
  match ← opening (← fs.place true p).node with
  | .directory => .error .isDirectory
  | opened => return opened

/-- Makes a path an empty file, be there one already or not, and gives its number. A file that was
there keeps its number and loses its content. -/
def create (fs : FileSystem) (p : Path) : Except FileFault (Nat × FileSystem) := do
  let place ← fs.place true p
  match place.node with
  | some (.file number) => return (number, fs.setContent number [])
  | none =>
    if place.asDirectory then .error .isDirectory
    else
      let number := fs.contents.length
      return (number, { fs.put place.location (.file number) with contents := fs.contents ++ [[]] })
  | some .directory => .error .isDirectory
  | some _ => .error .alreadyExists

/-- Makes a path a file with some content (`FileSystem.create`). -/
def writeFile (fs : FileSystem) (p : Path) (b : Bytes) : Except FileFault FileSystem := do
  let (number, fs) ← fs.create p
  return fs.setContent number b

/-- Puts something new at a path, through no link of its last name. What stands there already is a
failure. -/
def add (fs : FileSystem) (p : Path) (node : Node) : Except FileFault FileSystem := do
  let place ← fs.slot false p
  if place.node.isSome then .error .alreadyExists
  else if place.asDirectory && node != .directory then .error .noEntry
  else return fs.put place.location node

/-- The file system with something new at a path (`FileSystem.add`), or as it is where that
fails. -/
def addOrKeep (fs : FileSystem) (p : Path) (node : Node) : FileSystem :=
  match fs.add p node with
  | .ok fs => fs
  | .error _ => fs

/-- The file system with a file at a path (`FileSystem.writeFile`), or as it is where that fails. -/
def writeOrKeep (fs : FileSystem) (p : Path) (b : Bytes) : FileSystem :=
  match fs.writeFile p b with
  | .ok fs => fs
  | .error _ => fs

/-- Removes what a path names, which must not be a directory. A link goes itself, not what it leads
to. -/
def unlink (fs : FileSystem) (p : Path) : Except FileFault FileSystem := do
  let place ← fs.slot false p
  match place.node with
  | none => .error .noEntry
  | some .directory => .error .isDirectory
  | some _ => if place.asDirectory then .error .notDirectory else return fs.clear place.location

/-- Whether the last name of a path is neither `Path.here` nor `Path.above`, as `FileSystem.rename`
asks. -/
def endsInName (p : Path) : Bool :=
  match (names p).getLast? with
  | none => false
  | some name => name != Path.here && name != Path.above

/-- What a directory holds at a place, by name, in the order of the names. -/
def children (fs : FileSystem) (l : Location) : List (Bytes × Node) :=
  fs.nodes.bindings.filterMap fun (place, node) =>
    match place.getLast? with
    | some name => if place.dropLast = l then some (name, node) else none
    | none => none

/-- The file system with what stands at a place, and all below it, moved to another place. -/
def move (fs : FileSystem) (source target : Location) : FileSystem :=
  let moved := fs.nodes.bindings.filter fun (place, _) => source.isPrefixOf place
  let rest := moved.foldl (fun nodes (place, _) => nodes.erase place) fs.nodes
  let nodes := moved.foldl (fun nodes (place, node) =>
    nodes.insert (target ++ place.drop source.length) node) rest
  { fs with nodes }

/-- Moves a node from a place to another that may be taken (`FileSystem.move`): a directory takes
the place of an empty directory only, anything else that of anything but a directory. -/
def replace (fs : FileSystem) (node : Node) (source target : Location) :
    Except FileFault FileSystem :=
  match node, fs.node? target with
  | _, none => return fs.move source target
  | .directory, some .directory =>
    if (fs.children target).isEmpty then return fs.move source target else .error .notEmpty
  | .directory, some _ => .error .notDirectory
  | _, some .directory => .error .isDirectory
  | _, some _ => return fs.move source target

/-- Gives what one path names to another, in place of what that one names. Both directories are
looked up before either name is (`FileSystem.holder`), and a directory does not move below
itself. -/
def rename (fs : FileSystem) (source target : Path) : Except FileFault FileSystem := do
  let _ ← fs.holder source
  let _ ← fs.holder target
  if !(endsInName source && endsInName target) then .error .busy
  else
    let old ← fs.slot false source
    match old.node with
    | none => .error .noEntry
    | some node =>
      let new ← fs.slot false target
      if node != .directory && (old.asDirectory || new.asDirectory) then .error .notDirectory
      else if old.location = new.location then return fs
      else if old.location.isPrefixOf new.location then .error .invalidArgument
      else if new.location.isPrefixOf old.location then .error .notEmpty
      else fs.replace node old.location new.location

/-- What the directory at a path holds, by name (`FileSystem.children`), or a failure if it is
none. -/
def list (fs : FileSystem) (p : Path) : Except FileFault (List (Bytes × Node)) := do
  let place ← fs.place true p
  match place.node with
  | none => .error .noEntry
  | some .directory => return fs.children place.location
  | some _ => .error .notDirectory

/-- What is shown of an entry: of a file its content, and of a pipe or link nothing more. -/
def «show» (fs : FileSystem) : Node → Shown
  | .directory => .directory
  | .file number => .content (fs.content number)
  | .fifo | .link _ => .special

/-- What the directory at a path shows, by name (`FileSystem.show`); nothing if it is none. -/
def listing (fs : FileSystem) (p : Path) : List (Bytes × Shown) :=
  match fs.list p with
  | .ok entries => entries.map fun (name, node) => (name, fs.show node)
  | .error _ => []

end FileSystem

end KeyWatch
