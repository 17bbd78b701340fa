/-!
# The codes of the wire

Every request and every response starts with an operation code, an ASCII digit, and a response ends
with a result code. Each code is read from its byte and written back to it
(`OpCode.ofByte?_toByte`, `OpCode.toByte_of_ofByte?`).
-/

namespace KeyWatch

/-- What a `Request` asks for and a `Response` answers. -/
inductive OpCode where
  | connect
  | disconnect
  | subscribe
  | unsubscribe
  deriving DecidableEq, Repr

namespace OpCode

/-- The byte of an operation code, which is one of the ASCII digits 1 to 4. Operation: `as_byte`. -/
def toByte : OpCode → UInt8
  | connect => 0x31
  | disconnect => 0x32
  | subscribe => 0x33
  | unsubscribe => 0x34

/-- The operation code of a byte, or `none` for a byte that is none of the four. Operation:
`from_byte`. -/
def ofByte? (b : UInt8) : Option OpCode :=
  if b = 0x31 then some connect
  else if b = 0x32 then some disconnect
  else if b = 0x33 then some subscribe
  else if b = 0x34 then some unsubscribe
  else none

/-- The name by which the wording of an error calls an operation code (`ProtocolFault.message`). -/
def name : OpCode → String
  | connect => "Connect"
  | disconnect => "Disconnect"
  | subscribe => "Subscribe"
  | unsubscribe => "Unsubscribe"

/-- An operation code comes back from its byte: `OpCode.ofByte?` undoes `OpCode.toByte`. -/
@[simp] theorem ofByte?_toByte (op : OpCode) : ofByte? op.toByte = some op := by
  cases op <;> rfl

/-- A byte that is read as an operation code is the byte of that code, so two bytes are never read
as one code. -/
theorem toByte_of_ofByte? {b : UInt8} {op : OpCode} (h : ofByte? b = some op) :
    op.toByte = b := by
  unfold ofByte? at h
  split at h
  · cases h; simp [toByte, *]
  · split at h
    · cases h; simp [toByte, *]
    · split at h
      · cases h; simp [toByte, *]
      · split at h
        · cases h; simp [toByte, *]
        · cases h

end OpCode

/-- How an operation went, as the second byte of a `Response` says it. -/
inductive ResultCode where
  | ok
  | failed
  deriving DecidableEq, Repr

namespace ResultCode

/-- The byte of a result code, which is one of the ASCII digits 0 and 1. -/
def toByte : ResultCode → UInt8
  | ok => 0x30
  | failed => 0x31

/-- The result code of a byte, or `none` for a byte that is neither of the two. Operation:
`from_byte`. -/
def ofByte? (b : UInt8) : Option ResultCode :=
  if b = 0x30 then some ok
  else if b = 0x31 then some failed
  else none

/-- A result code comes back from its byte: `ResultCode.ofByte?` undoes `ResultCode.toByte`. -/
@[simp] theorem ofByte?_toByte (r : ResultCode) : ofByte? r.toByte = some r := by
  cases r <;> rfl

/-- A byte that is read as a result code is the byte of that code. -/
theorem toByte_of_ofByte? {b : UInt8} {r : ResultCode} (h : ofByte? b = some r) :
    r.toByte = b := by
  unfold ofByte? at h
  split at h
  · cases h; simp [toByte, *]
  · split at h
    · cases h; simp [toByte, *]
    · cases h

end ResultCode

end KeyWatch
