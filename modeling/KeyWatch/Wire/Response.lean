import KeyWatch.Pipe.Sink
import KeyWatch.Pipe.Source

/-!
# Responses

What the server answers to a request: the operation it answers and how it went. On the wire a
response is two digits, the operation code and the result code.
-/

namespace KeyWatch

/-- The server's answer to a request: the operation it answers and how that went. -/
structure Response where
  op : OpCode
  result : ResultCode
  deriving DecidableEq, Repr

namespace Response

/-- The size of a response on the wire, a byte for each of its two codes. -/
def frameSize : Nat := 2

/-- Whether the operation went well, that is, the result is `ResultCode.ok`. Operation: `is_ok`. -/
def isOk (r : Response) : Bool := r.result == .ok

/-- A response as bytes, which always succeeds. Operation: `encode_response`. -/
def encode (r : Response) : Bytes := [r.op.toByte, r.result.toByte]

/-- The response at the start of some bytes. Of two bytes that are no codes the first is reported,
as an unknown operation. Operation: `decode_response`. -/
def decode : Bytes → Except ProtocolFault Response
  | a :: b :: _ =>
    match OpCode.ofByte? a, ResultCode.ofByte? b with
    | none, _ => .error (.unknownOp a)
    | _, none => .error (.unknownResult b)
    | some op, some result => .ok ⟨op, result⟩
  | short => .error (.shortResponse frameSize short.length)

/-- Reads a response of `frameSize` bytes, or nothing where the stream ends before it. Operation:
`read_response`. -/
def read {ε : Type} (source : Source ε) : Received ε Response :=
  (readFrame "response" frameSize source).decode decode

/-- Writes a response to a sink and flushes it (`Sink.send`). Operation: `write_response`. -/
def write (r : Response) (sink : Sink) : Sending := sink.send "response" r.encode

/-- A response reads back from its bytes, whatever stands behind them. -/
@[simp] theorem decode_encode (r : Response) (rest : Bytes) :
    decode (r.encode ++ rest) = .ok r := by
  obtain ⟨op, result⟩ := r
  simp [encode, decode]

end Response

end KeyWatch
