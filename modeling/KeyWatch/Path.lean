import KeyWatch.Text.Utf8

/-!
# Paths

A path is the bytes by which a file is named. A slash separates its parts, and neither a repeated
slash nor a part that is a single dot counts, a leading dot apart (`Path.trimEnd`). The last part is
the file's name (`Path.fileName?`) and splits at its last dot into stem and extension; a dot that
opens the name starts no extension.

A path is shown as text with the replacement character for what is not UTF-8 (`Path.shown`).
-/

namespace KeyWatch

/-- The bytes by which a file is named. They need not be text, and `Path.shown` is how they are
told. -/
structure Path where
  bytes : Bytes
  deriving DecidableEq, Repr

namespace Path

/-- The byte that separates the parts of a path. -/
def slash : UInt8 := 0x2F

/-- The byte before an extension, and the one that `here` and `above` are made of. -/
def dot : UInt8 := 0x2E

/-- The part that stands for the directory itself, a single `dot`. -/
def here : Bytes := [dot]

/-- The part that stands for the directory above, two of `dot`. -/
def above : Bytes := [dot, dot]

/-- The path that a text spells, whose bytes are those of `Utf8.encode`. -/
def ofString (s : String) : Path := ⟨Utf8.encode s⟩

/-- The path as text, with U+FFFD for what is not UTF-8 (`Utf8.lossy`). So two paths may be shown
alike. -/
def shown (p : Path) : String := Utf8.lossy p.bytes

/-- Whether a path starts at the root, that is, with a `slash`. -/
def isAbsolute (p : Path) : Bool := p.bytes.head? == some slash

/-- A path below another, with one `slash` between them; an absolute second path replaces the
first. -/
def join (p q : Path) : Path :=
  if q.isAbsolute then q
  else
    match p.bytes.getLast? with
    | none => q
    | some b => if b = slash then ⟨p.bytes ++ q.bytes⟩ else ⟨p.bytes ++ slash :: q.bytes⟩

/-- What stands before a trailing run of slashes and single dots that count as no part. The bytes
are those of the path in reverse, so the run is at their start. -/
def dropIdle : (reversed : Bytes) → Bytes
  | [] => []
  | [b] => [b]
  | b :: c :: rest =>
    if b = slash then dropIdle (c :: rest)
    else if b = dot ∧ c = slash then dropIdle (c :: rest)
    else b :: c :: rest

/-- The path without a trailing run of slashes and single dots (`dropIdle`). -/
def trimEnd (p : Path) : Path := ⟨(dropIdle p.bytes.reverse).reverse⟩

/-- The bytes before the last part of a path, and that part as it is spelt. Slashes and dots at the
end are not looked at (`trimEnd`). -/
def splitLast (p : Path) : Bytes × Bytes :=
  let reversed := p.trimEnd.bytes.reverse
  ((reversed.dropWhile (· != slash)).reverse, (reversed.takeWhile (· != slash)).reverse)

/-- The name of the file, which is the last part of the path (`splitLast`), unless that is missing
or is `here` or `above`. -/
def fileName? (p : Path) : Option Bytes :=
  let name := p.splitLast.2
  if name = [] ∨ name = here ∨ name = above then none else some name

/-- The directory that holds the file, unless the path is the root or empty. -/
def parent? (p : Path) : Option Path :=
  match p.splitLast with
  | (_, []) => none
  | (before, _) => some (trimEnd ⟨before⟩)

/-- A name cut at its last `dot` into stem and extension. A dot that opens the name starts no
extension, and `above` has none. -/
def splitName (name : Bytes) : Bytes × Option Bytes :=
  let tail := name.reverse.takeWhile (· != dot)
  let head := (name.reverse.drop (tail.length + 1)).reverse
  if name = above ∨ head = [] then (name, none) else (head, some tail.reverse)

/-- The name of the file (`fileName?`) without its extension. -/
def fileStem? (p : Path) : Option Bytes := p.fileName?.map fun name => (splitName name).1

/-- The extension of the name of the file (`fileName?`), if the name has one. -/
def extension? (p : Path) : Option Bytes := p.fileName?.bind fun name => (splitName name).2

/-- The path cut after the stem of the file's name (`fileStem?`) and given an extension. A path
without a file stays as it is. -/
def addExtension (p : Path) (extension : String) : Path :=
  match p.fileStem? with
  | none => p
  | some stem => ⟨p.splitLast.1 ++ stem ++ dot :: Utf8.encode extension⟩

/-- The path with the extension of the file's name replaced. As many bytes as the old extension has
go from the end of the path first, so a name whose stem is a single dot is left as the directory
above, which takes no extension (`addExtension`). -/
def withExtension (p : Path) (extension : String) : Path :=
  match p.extension? with
  | none => p.addExtension extension
  | some old => addExtension ⟨p.bytes.take (p.bytes.length - old.length)⟩ extension

end Path

end KeyWatch
