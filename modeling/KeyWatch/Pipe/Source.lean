import KeyWatch.Error

/-!
# Sources of bytes

A source is what its reader will meet, in order (`Piece`): bytes that arrive together, a read that
fails, a read that finds the stream at its end, and events that happen elsewhere while a read waits.
A frame of a fixed size is filled from as many pieces as it takes (`fill`). An interrupted read is
tried again and a piece longer than the frame keeps its rest, so how the bytes were cut and where
reads were interrupted cannot be told from the frames.

Reading says nothing about what the events do: they are handed to the caller in the order in which
they happened (`Received.events`).
-/

namespace KeyWatch

/-- What a reader meets next in a `Source`. -/
inductive Piece (ε : Type) where
  /-- bytes that arrive together -/
  | bytes (content : Bytes)
  /-- a read that fails -/
  | fail (fault : IoFault)
  /-- a read that finds the stream at its end -/
  | ending
  /-- something that happens elsewhere while a read waits -/
  | event (e : ε)
  deriving Repr

/-- What the reader of a source will meet, in order. After the last piece the stream stays at its
end. -/
abbrev Source (ε : Type) := List (Piece ε)

namespace Piece

variable {ε : Type}

/-- A bound on the reads that a piece can feed, which is more than its bytes. -/
def weight : Piece ε → Nat
  | bytes content => content.length + 1
  | _ => 1

/-- The bytes of a piece, of which only the piece `Piece.bytes` has any. -/
def content : Piece ε → Bytes
  | bytes content => content
  | _ => []

/-- The events of a piece, of which only the piece `Piece.event` has one. -/
def events : Piece ε → List ε
  | event e => [e]
  | _ => []

end Piece

namespace Source

variable {ε : Type}

/-- A bound on the reads that a source can feed, the sum over its pieces (`Piece.weight`). -/
def weight (s : Source ε) : Nat := (s.map Piece.weight).foldr (· + ·) 0

/-- The bytes of a source, in order, whatever stands between them (`Piece.content`). -/
def content (s : Source ε) : Bytes := s.flatMap Piece.content

/-- The events of a source, in order (`Piece.events`). -/
def events (s : Source ε) : List ε := s.flatMap Piece.events

end Source

/-- How the filling of a frame ends (`fill`): the frame is full, the stream ended before its first
byte or inside it, or a read failed. -/
inductive Fill where
  | full (frame : Bytes)
  | ended
  | cut (size : Nat)
  | failed (fault : IoFault)
  deriving DecidableEq, Repr

/-- A frame that was filled as far as it went (`Fill`), the events met on the way, and what is left
of the source. -/
structure Filled (ε : Type) where
  outcome : Fill
  events : List ε
  rest : Source ε

/-- How the filling of a frame ends when the stream does: between two frames, or inside one. -/
def Fill.atEnd (got : Bytes) : Fill :=
  if got.isEmpty then .ended else .cut got.length

/-- Fills a frame of `size` bytes, of which `got` are there. An interrupted read is tried again, and
a piece longer than what is missing keeps its rest. -/
def fill {ε : Type} (size : Nat) (got : Bytes) : Source ε → Filled ε
  | [] => ⟨.atEnd got, [], []⟩
  | .ending :: rest => ⟨.atEnd got, [], rest⟩
  | .fail fault :: rest =>
    if fault.kind = .interrupted then fill size got rest else ⟨.failed fault, [], rest⟩
  | .event e :: rest =>
    let filled := fill size got rest
    { filled with events := e :: filled.events }
  | .bytes content :: rest =>
    let missing := size - got.length
    if content.length < missing then fill size (got ++ content) rest
    else if content.length = missing then ⟨.full (got ++ content), [], rest⟩
    else ⟨.full (got ++ content.take missing), [], .bytes (content.drop missing) :: rest⟩

/-- What a read of one value gives: the value, nothing when the stream ended between two values, or
an error; the events met on the way; and what is left of the source. -/
structure Received (ε α : Type) where
  result : Except Error (Option α)
  events : List ε
  rest : Source ε

/-- The failure of a frame that the end of the stream cuts short, which `readFrame` reports. -/
def truncated (what : String) (size limit : Nat) : IoFault :=
  ⟨.unexpectedEof, "truncated " ++ what ++ " frame (" ++ toString size ++ " of " ++
    toString limit ++ " bytes)"⟩

/-- Reads a frame of `size` bytes (`fill`), or nothing where the stream ends before its first byte.
What goes wrong is told of under the name `what`. Operation: `read_frame`. -/
def readFrame {ε : Type} (what : String) (size : Nat) (source : Source ε) : Received ε Bytes :=
  let filled := fill size [] source
  let result := match filled.outcome with
    | .full frame => .ok (some frame)
    | .ended => .ok none
    | .cut got => .error (.io (truncated what got size))
    | .failed fault => .error (.ofIo fault what)
  ⟨result, filled.events, filled.rest⟩

/-- What was received, decoded by `f`. A fault of `f` is an error of the area `Area.protocol`; the
events and what is left stay as they are. -/
def Received.decode {ε α β : Type} (f : α → Except ProtocolFault β) (r : Received ε α) :
    Received ε β :=
  ⟨match r.result with
    | .ok (some a) => (f a).mapError .protocol |>.map some
    | .ok none => .ok none
    | .error e => .error e, r.events, r.rest⟩

/-- The values received, up to the first read that gives none, which is how a stream of
notifications is read to its end. -/
def Received.values {ε α : Type} : List (Received ε α) → List α
  | [] => []
  | r :: rest =>
    match r.result with
    | .ok (some a) => a :: values rest
    | _ => []

/-- Whether a reading ends with this read: nothing came, or the failure is not one of decoding,
behind which the next frame can be read. -/
def Received.stops {ε α : Type} (r : Received ε α) : Bool :=
  match r.result with
  | .ok (some _) => false
  | .ok none => true
  | .error e => e.area != .protocol

/-- What at most `limit` reads give one after another, up to the first that `Received.stops` and
leaves nothing. -/
def readSeries {ε α : Type} (read : Source ε → Received ε α) :
    (limit : Nat) → Source ε → List (Received ε α)
  | 0, _ => []
  | limit + 1, source =>
    let r := read source
    r :: if r.stops && r.rest.isEmpty then [] else readSeries read limit r.rest

/-- Every read that a source can feed, and the one after it (`readSeries`). There are at most as
many as the `Source.weight` bounds. -/
def readAll {ε α : Type} (read : Source ε → Received ε α) (source : Source ε) :
    List (Received ε α) :=
  go (source.weight + 1) source
where
  /-- The reads up to the first made of an empty source. -/
  go : Nat → Source ε → List (Received ε α)
    | 0, _ => []
    | fuel + 1, source =>
      let r := read source
      r :: if source.isEmpty then [] else go fuel r.rest

/-! ## Events of a reading -/

/-- The filling of a frame hands over the events that it meets and leaves the others, in order. So
none is lost or told twice. -/
theorem events_fill {ε : Type} (size : Nat) (got : Bytes) (source : Source ε) :
    (fill size got source).events ++ Source.events (fill size got source).rest =
      source.events := by
  fun_induction fill size got source with
  | case1 | case2 => rfl
  | case3 got fault rest _ ih => exact ih
  | case4 => rfl
  | case5 got e rest filled ih => exact congrArg (e :: ·) ih
  | case6 got content rest missing _ ih => exact ih
  | case7 | case8 => rfl

/-- The reading of a frame hands over the events that it meets and leaves the others
(`events_fill`). -/
theorem events_readFrame {ε : Type} (what : String) (size : Nat) (source : Source ε) :
    (readFrame what size source).events ++ Source.events (readFrame what size source).rest =
      source.events :=
  events_fill size [] source

/-- The reads of a source meet its events and no others, if each read hands over what it meets and
leaves what it does not. -/
theorem events_subset_of_mem_readAll {ε α : Type} {read : Source ε → Received ε α}
    (hread : ∀ source, (read source).events ++ Source.events (read source).rest = source.events)
    {source : Source ε} : ∀ r ∈ readAll read source, r.events ⊆ source.events := by
  unfold readAll
  generalize source.weight + 1 = fuel
  induction fuel generalizing source with
  | zero => exact nofun
  | succ fuel ih =>
    intro r hr e he
    rw [← hread source]
    rcases List.mem_cons.1 hr with rfl | hr
    · exact List.mem_append_left _ he
    · split at hr
      · cases hr
      · exact List.mem_append_right _ (ih r hr he)

/-- In a source without events no read meets any (`events_subset_of_mem_readAll`). -/
theorem events_of_mem_readAll {ε α : Type} {read : Source ε → Received ε α}
    (hread : ∀ source, (read source).events ++ Source.events (read source).rest = source.events)
    {source : Source ε} (h : source.events = []) : ∀ r ∈ readAll read source, r.events = [] :=
  fun r hr => List.subset_nil.1 (h ▸ events_subset_of_mem_readAll hread r hr)

end KeyWatch
