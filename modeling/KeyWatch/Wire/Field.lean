import KeyWatch.Error

/-!
# Text fields

A text stands on the wire in a field of fixed width: its UTF-8 bytes, and NUL bytes up to the width,
at least one of them. A field is read up to its first NUL, or whole if it holds none. Reading gives
back a text without NUL that was written (`decodeField_encodeField`).
-/

namespace KeyWatch

/-- The size, in bytes, of the longest key, value or client id that the wire carries. -/
def maxTextSize : Nat := 40

/-- The width of the field of a key or value: a text of `maxTextSize` bytes and a NUL behind it. -/
def textWidth : Nat := maxTextSize + 1

/-- A text as a field: its bytes (`Utf8.encode`) and NUL bytes up to the width, at least one of
them. A text that is too long for this is refused. The text may hold a NUL itself, at which
`decodeField` will cut it. Operation: `put_field`. -/
def encodeField (what : String) (width : Nat) (text : String) : Except ProtocolFault Bytes :=
  if width ≤ text.utf8ByteSize then .error (.tooLong what text.utf8ByteSize (width - 1))
  else .ok (Utf8.encode text ++ List.replicate (width - text.utf8ByteSize) 0)

/-- The bytes of a field before its first NUL, or the whole field if it holds none. -/
def fieldText (field : Bytes) : Bytes := field.takeWhile (· != 0)

/-- The text of a field (`fieldText`), or the fault of bytes that are no text. A field without a NUL
is read whole, although `encodeField` never writes one. Operation: `decode_field`. -/
def decodeField (what : String) (field : Bytes) : Except ProtocolFault String :=
  (Utf8.decode (fieldText field)).mapError (.notText what)

/-- Whether a text holds a NUL character, at which a reader of its field would cut it
(`fieldText`). -/
def hasNul (text : String) : Bool := (Utf8.encode text).any (· == 0)

/-- Two texts put together hold a NUL if and only if one of the two does. -/
theorem hasNul_append (s t : String) : hasNul (s ++ t) = (hasNul s || hasNul t) := by
  rw [hasNul, Utf8.encode_append, List.any_append]
  rfl

/-- The field that `encodeField` writes has the given width, whatever the text. -/
theorem length_encodeField {what : String} {width : Nat} {text : String} {field : Bytes}
    (h : encodeField what width text = .ok field) : field.length = width := by
  unfold encodeField at h
  split at h
  · cases h
  · cases h
    simp only [List.length_append, Utf8.length_encode, List.length_replicate]
    omega

/-- The texts that `encodeField` takes are those that leave room for a NUL in the field; the field
is then the text's bytes and zeros. -/
theorem encodeField_eq_ok_iff {what : String} {width : Nat} {text : String} {field : Bytes} :
    encodeField what width text = .ok field ↔
      text.utf8ByteSize < width ∧
        field = Utf8.encode text ++ List.replicate (width - text.utf8ByteSize) 0 := by
  unfold encodeField
  split
  · constructor
    · intro h; cases h
    · rintro ⟨h, -⟩; omega
  · constructor
    · intro h; cases h; exact ⟨by omega, rfl⟩
    · rintro ⟨-, rfl⟩; rfl

/-- Bytes without a NUL, with any number of NUL bytes behind them, are read back by `fieldText`. -/
theorem fieldText_append_zeros {b : Bytes} (h : b.any (· == 0) = false) (n : Nat) :
    fieldText (b ++ List.replicate n 0) = b := by
  induction b with
  | nil => cases n <;> simp [fieldText, List.replicate_succ]
  | cons x rest ih =>
    simp only [List.any_cons, Bool.or_eq_false_iff, beq_eq_false_iff_ne] at h
    have := ih h.2
    simp only [fieldText] at this ⊢
    simp [h.1, this]

/-- A text without NUL comes back from the field that `encodeField` wrote, under whatever name
`decodeField` is asked for it. -/
theorem decodeField_encodeField {what what' : String} {width : Nat} {text : String} {field : Bytes}
    (h : encodeField what width text = .ok field) (hn : hasNul text = false) :
    decodeField what' field = .ok text := by
  obtain ⟨-, rfl⟩ := encodeField_eq_ok_iff.1 h
  rw [decodeField, fieldText_append_zeros hn, Utf8.decode_encode]
  rfl

end KeyWatch
