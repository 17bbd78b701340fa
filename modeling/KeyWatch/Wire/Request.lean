import KeyWatch.Pipe.Sink
import KeyWatch.Pipe.Source
import KeyWatch.Wire.Field

/-!
# Requests

What a client asks of the server in its session. On the wire a request is its operation code, and
behind the code of a subscription or of its end stands the key, as a text field.

A request is decoded from a whole frame (`Request.decode`), whatever follows it, or read from a
source in two steps, first the code and then as much as the code calls for (`Request.read`).
-/

namespace KeyWatch

/-- A request of a client in its session. Only the two that concern a subscription name a key. -/
inductive Request where
  | connect
  | disconnect
  | subscribe (key : String)
  | unsubscribe (key : String)
  deriving DecidableEq, Repr

namespace Request

/-- The operation that a request asks for, which the response to it names again. Operation:
`op_code`. -/
def op : Request → OpCode
  | connect => .connect
  | disconnect => .disconnect
  | subscribe _ => .subscribe
  | unsubscribe _ => .unsubscribe

/-- A request as bytes: its code, and behind the code of a subscription or of its end the key as a
field (`encodeField`), which may be too long. Operation: `encode_request`. -/
def encode : Request → Except ProtocolFault Bytes
  | connect => .ok [OpCode.connect.toByte]
  | disconnect => .ok [OpCode.disconnect.toByte]
  | subscribe key => (encodeField "key" textWidth key).map (OpCode.subscribe.toByte :: ·)
  | unsubscribe key => (encodeField "key" textWidth key).map (OpCode.unsubscribe.toByte :: ·)

/-- The key that stands at the start of some bytes, of which there must be at least `textWidth`. -/
def decodeKey (payload : Bytes) : Except ProtocolFault String :=
  if payload.length < textWidth then .error (.shortKey textWidth payload.length)
  else decodeField "key" (payload.take textWidth)

/-- The request at the start of some bytes, or the fault of the first code or key that is none. What
stands behind the request is not looked at. Operation: `decode_request`. -/
def decode : Bytes → Except ProtocolFault Request
  | [] => .error .emptyRequest
  | b :: payload =>
    match OpCode.ofByte? b with
    | none => .error (.unknownOp b)
    | some .connect => .ok connect
    | some .disconnect => .ok disconnect
    | some .subscribe => (decodeKey payload).map subscribe
    | some .unsubscribe => (decodeKey payload).map unsubscribe

/-- How many bytes a reader takes behind an operation code byte: `textWidth` where a key follows,
none elsewhere, also behind a byte that is no code. -/
def payloadWidth (b : UInt8) : Nat :=
  match OpCode.ofByte? b with
  | some .subscribe | some .unsubscribe => textWidth
  | _ => 0

/-- The failure of a request whose code is the last byte of the stream, where `decodeKey` alone
would tell of a key that is too short. -/
def closedBeforeKey : IoFault := ⟨.unexpectedEof, "request FIFO closed before key"⟩

/-- Reads the key of a request whose code has been read, and decodes code and key together
(`Request.decode`). A stream that ends before the key is `closedBeforeKey`. -/
def readPayload {ε : Type} (b : UInt8) (source : Source ε) : Received ε Request :=
  let payload := readFrame "request key" textWidth source
  match payload.result with
  | .ok none => ⟨.error (.io closedBeforeKey), payload.events, payload.rest⟩
  | _ => payload.decode fun key => decode (b :: key)

/-- Reads a request in two steps, first the code and then as much as the code calls for
(`payloadWidth`), or nothing where the stream ends before a code. Operation: `read_request`. -/
def read {ε : Type} (source : Source ε) : Received ε Request :=
  let first := readFrame "request" 1 source
  match first.result with
  | .ok (some (b :: _)) =>
    if payloadWidth b = 0 then first.decode decode
    else
      let whole := readPayload b first.rest
      { whole with events := first.events ++ whole.events }
  | _ => first.decode decode

/-- The reading of a request hands over the events that it meets on its way and leaves those behind
it in the source. -/
theorem events_read {ε : Type} (source : Source ε) :
    (read source).events ++ Source.events (read source).rest = source.events := by
  have hfirst := events_readFrame "request" 1 source
  unfold read
  generalize readFrame "request" 1 source = first at hfirst ⊢
  simp only
  split
  case h_2 => exact hfirst
  case h_1 b _ _ =>
    split
    case isTrue => exact hfirst
    case isFalse =>
      have hpayload := events_readFrame "request key" textWidth first.rest
      have hwhole : (readPayload b first.rest).events ++
          Source.events (readPayload b first.rest).rest = Source.events first.rest := by
        unfold readPayload
        generalize readFrame "request key" textWidth first.rest = payload at hpayload ⊢
        simp only
        split <;> exact hpayload
      rw [List.append_assoc, hwhole, hfirst]

/-- Writes a request to a sink, unless `Request.encode` refuses it, in which case the sink is not
touched. Operation: `write_request`. -/
def write (r : Request) (sink : Sink) : Sending :=
  sink.sendEncoded "request" r.encode

end Request

end KeyWatch
