import KeyWatch.Pipe.Source

/-!
# Pipes

A pipe carries bytes in order from the end where they are written to the end where they are read.
What was written and is not read yet is in the pipe. A reader waits while less is in the pipe than
it needs, unless the writing end is closed: then it meets the end of the stream (`Pipe.receive?`).
-/

namespace KeyWatch

/-- The bytes that were written into a pipe and are not read yet, and whether the writing end is
closed. -/
structure Pipe where
  content : Bytes
  closed : Bool
  deriving DecidableEq, Repr

namespace Pipe

/-- A new pipe, with nothing in it and its writing end open. -/
def empty : Pipe := ⟨[], false⟩

/-- A pipe into which some bytes were written, and no more will be. -/
def ofBytes (b : Bytes) : Pipe := ⟨b, true⟩

/-- The pipe after a write, whose bytes stand behind those that are in it. -/
def write (p : Pipe) (b : Bytes) : Pipe := { p with content := p.content ++ b }

/-- The pipe with its writing end closed. What is in it can still be read. -/
def close (p : Pipe) : Pipe := { p with closed := true }

/-- What a reader of the pipe meets as a `Source`: the bytes, and the end of the stream if the
writing end is closed. To wait for more is an event. -/
def toSource (p : Pipe) : Source Unit :=
  .bytes p.content :: if p.closed then [] else [.event ()]

/-- Reads a value off the pipe, or `none` where the reader would have to wait, that is, where the
reading of `Pipe.toSource` meets the event. -/
def receive? {α : Type} (read : Source Unit → Received Unit α) (p : Pipe) :
    Option (Except Error (Option α) × Pipe) :=
  let received := read p.toSource
  if received.events.isEmpty then
    some (received.result, { p with content := received.rest.content })
  else none

/-- The values in the pipe, up to the first read that gives none (`Received.values`). -/
def values {α : Type} (read : Source Unit → Received Unit α) (p : Pipe) : List α :=
  Received.values (readAll read p.toSource)

end Pipe

end KeyWatch
