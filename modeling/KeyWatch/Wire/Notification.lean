import KeyWatch.Pipe.Sink
import KeyWatch.Pipe.Source
import KeyWatch.Wire.Field

/-!
# Notifications

What the server tells a client of a key it watches: the key and its new value. On the wire a
notification is two text fields, the key and the value. There is no other sign for a deletion than
the value `Notification.deletedValue`.
-/

namespace KeyWatch

/-- The news of a change of a key: the key and its new value, which is `Notification.deletedValue`
if the key is gone. -/
structure Notification where
  key : String
  value : String
  deriving DecidableEq, Repr

namespace Notification

/-- The value in the news of a deletion. A write of this very value looks the same on the wire. -/
def deletedValue : String := "DELETED"

/-- The value in the news of a deletion is not longer than `maxTextSize`, so `Notification.deleted`
of a short key can be encoded. -/
theorem size_deletedValue : deletedValue.utf8ByteSize ≤ maxTextSize := by decide

/-- The size of a notification on the wire: two fields of `textWidth` bytes. -/
def frameSize : Nat := 2 * textWidth

/-- The news that a key is gone, which is the key with `deletedValue`. Operation: `deleted`. -/
def deleted (key : String) : Notification := ⟨key, deletedValue⟩

/-- Whether the value is `deletedValue`. So the news of a write of that value counts as a deletion
too. Operation: `is_delete`. -/
def isDelete (n : Notification) : Bool := n.value == deletedValue

/-- A notification as bytes, the field of the key and that of the value (`encodeField`); the key is
checked first. Operation: `encode_notification`. -/
def encode (n : Notification) : Except ProtocolFault Bytes := do
  let key ← encodeField "key" textWidth n.key
  let value ← encodeField "value" textWidth n.value
  return key ++ value

/-- The notification that a frame holds: its first `textWidth` bytes are the key and the others the
value. -/
def decode (frame : Bytes) : Except ProtocolFault Notification := do
  let key ← decodeField "key" (frame.take textWidth)
  let value ← decodeField "value" (frame.drop textWidth)
  return ⟨key, value⟩

/-- The notification whose encoding some bytes are, or `none` if they are the encoding of none. What
`Notification.decode` reads may have other bytes than its encoding. -/
def ofFrame? (b : Bytes) : Option Notification :=
  match decode b with
  | .ok n =>
    match n.encode with
    | .ok frame => if frame = b then some n else none
    | .error _ => none
  | .error _ => none

/-- A notification that can be encoded has a field for its key and one for its value, and they make
its frame. -/
theorem encode_eq_ok {n : Notification} {frame : Bytes} (h : n.encode = .ok frame) :
    ∃ key value, encodeField "key" textWidth n.key = .ok key ∧
      encodeField "value" textWidth n.value = .ok value ∧ frame = key ++ value := by
  unfold encode at h
  cases hk : encodeField "key" textWidth n.key with
  | error _ =>
    rw [hk] at h
    cases h
  | ok key =>
    cases hv : encodeField "value" textWidth n.value with
    | error _ =>
      rw [hk, hv] at h
      cases h
    | ok value =>
      rw [hk, hv] at h
      cases h
      exact ⟨key, value, rfl, rfl, rfl⟩

/-- The frame that `Notification.encode` gives has `frameSize` bytes. -/
theorem length_encode {n : Notification} {frame : Bytes} (h : n.encode = .ok frame) :
    frame.length = frameSize := by
  obtain ⟨key, value, hk, hv, rfl⟩ := encode_eq_ok h
  rw [List.length_append, length_encodeField hk, length_encodeField hv]
  rfl

/-- A notification whose texts hold no NUL reads back from its frame. -/
theorem decode_encode {n : Notification} {frame : Bytes} (h : n.encode = .ok frame)
    (hkey : hasNul n.key = false) (hvalue : hasNul n.value = false) : decode frame = .ok n := by
  obtain ⟨key, value, hk, hv, rfl⟩ := encode_eq_ok h
  rw [decode, List.take_left' (length_encodeField hk), List.drop_left' (length_encodeField hk),
    decodeField_encodeField hk hkey, decodeField_encodeField hv hvalue]
  rfl

/-- Reads a notification of `frameSize` bytes, or nothing where the stream ends before it.
Operation: `read_notification`. -/
def read {ε : Type} (source : Source ε) : Received ε Notification :=
  (readFrame "notification" frameSize source).decode decode

/-- Writes a notification to a sink, unless `Notification.encode` refuses it, in which case the sink
is not touched. Operation: `write_notification`. -/
def write (n : Notification) (sink : Sink) : Sending :=
  sink.sendEncoded "notification" n.encode

end Notification

end KeyWatch
