import KeyWatch.Path
import KeyWatch.Pipe.Sink
import KeyWatch.Pipe.Source
import KeyWatch.Text.Blank
import KeyWatch.Wire.Field

/-!
# Registrations

With a registration a client makes itself known: it names the three pipes of its session and gives
itself an id. On the wire a registration is a line of five words, a tag, the paths and the id, in a
text field of `Registration.frameSize` bytes. So no path and no id may hold a blank.
-/

namespace KeyWatch

/-- What a client says to open a session: the paths of its three pipes and its id. `Server.register`
acts on it. -/
structure Registration where
  request : Path
  response : Path
  notification : Path
  clientId : String
  deriving DecidableEq, Repr

namespace Registration

/-- The size of a registration on the wire, in which the line of its words stands as one field. -/
def frameSize : Nat := 512

/-- The size, in bytes, of the longest path that `Registration.pathWord` lets into a
registration. -/
def maxPathSize : Nat := 128

/-- The first word of a registration, by which `Registration.ofLine` knows it. -/
def tag : String := "0"

/-- A path as a word of a registration, or the fault of a path that is no text, is empty, is longer
than `maxPathSize` or holds a blank. Operation: `path_token`. -/
def pathWord (what : String) (path : Path) : Except ProtocolFault String :=
  match Utf8.decode path.bytes with
  | .error _ => .error (.pathNotText what)
  | .ok text =>
    if text.utf8ByteSize = 0 ∨ maxPathSize < text.utf8ByteSize then
      .error (.pathSize what maxPathSize text.utf8ByteSize)
    else if Text.hasBlank text then .error (.pathBlank what)
    else .ok text

/-- Whether a text can be the id of a client in a registration that is encoded: not empty, at most
`maxTextSize` bytes and without a blank. -/
def isClientId (id : String) : Bool :=
  id.utf8ByteSize != 0 && id.utf8ByteSize ≤ maxTextSize && !Text.hasBlank id

/-- The line of a registration: `tag`, the three paths and the id, with a space between each two. -/
def line (request response notification id : String) : String :=
  tag ++ " " ++ request ++ " " ++ response ++ " " ++ notification ++ " " ++ id

/-- A registration as bytes: the `line` of its words as a field. The id is checked first and then
the paths in order (`isClientId`, `pathWord`). Operation: `encode_registration`. -/
def encode (r : Registration) : Except ProtocolFault Bytes :=
  if isClientId r.clientId then do
    let request ← pathWord "request path" r.request
    let response ← pathWord "response path" r.response
    let notification ← pathWord "notification path" r.notification
    encodeField "registration" frameSize (line request response notification r.clientId)
  else .error (.badClientId r.clientId)

/-- The registration that a line makes, which must have five words (`Text.words`), the first of them
`tag`. Of the words only the length of the id is checked here. -/
def ofLine (text : String) : Except ProtocolFault Registration :=
  match Text.words text with
  | [first, request, response, notification, id] =>
    if first = tag then
      if maxTextSize < id.utf8ByteSize then .error (.longClientId id)
      else .ok ⟨.ofString request, .ofString response, .ofString notification, id⟩
    else .error (.malformedRegistration text)
  | _ => .error (.malformedRegistration text)

/-- The registration that a frame holds (`decodeField`, `Registration.ofLine`). Operation:
`decode_registration`. -/
def decode (frame : Bytes) : Except ProtocolFault Registration := do
  ofLine (← decodeField "registration" frame)

/-- Reads a registration of `frameSize` bytes, or nothing where the stream ends before it.
Operation: `read_registration`. -/
def read {ε : Type} (source : Source ε) : Received ε Registration :=
  (readFrame "registration" frameSize source).decode decode

/-- Writes a registration to a sink, unless `Registration.encode` refuses it, in which case the sink
is not touched. Operation: `write_registration`. -/
def write (r : Registration) (sink : Sink) : Sending :=
  sink.sendEncoded "registration" r.encode

end Registration

end KeyWatch
