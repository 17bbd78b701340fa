import KeyWatch.Proofs.Text.Utf8
import KeyWatch.Wire.Field
import Mathlib.Data.List.TakeWhile

/-!
# What a field holds

A field is read up to its first NUL. So of a text that is put into a field the part before its first
NUL comes back (`decodeField_encodeField_eq`), which is the text itself only if it holds none
(`beforeNul_eq_self_iff`).

The other way round, what is read from a field holds no NUL (`hasNul_of_decodeField`) and is no
longer than the field. It is as long as the field just if no NUL ends it
(`size_eq_iff_of_decodeField`), and then it is too long to be put into one.
-/

namespace KeyWatch

/-! ## What has a field -/

/-- A text beyond the limit `maxTextSize` has no field of its own. -/
theorem encodeField_of_lt {text : String} (h : maxTextSize < text.utf8ByteSize) (what : String) :
    encodeField what textWidth text =
      .error (.tooLong what text.utf8ByteSize maxTextSize) :=
  if_pos h

/-- A text within the limit `maxTextSize` has a field. -/
theorem exists_encodeField {text : String} (h : text.utf8ByteSize ≤ maxTextSize) (what : String) :
    ∃ field, encodeField what textWidth text = .ok field :=
  ⟨_, encodeField_eq_ok_iff.2 ⟨Nat.lt_succ_of_le h, rfl⟩⟩

/-! ## What comes back from a field -/

/-- A text up to its first NUL, which is what `decodeField` reads of it. -/
def beforeNul (text : String) : String := String.ofList (text.toList.takeWhile (· != '\x00'))

/-- Whether a text holds a NUL (`hasNul`) is a matter of its characters. -/
theorem hasNul_eq_any (text : String) : hasNul text = text.toList.any (· == '\x00') := by
  rw [hasNul, Utf8.encode, List.any_flatMap]
  exact congrArg (text.toList.any ·) (funext Utf8.any_encodeChar)

/-- A text holds no NUL (`hasNul`) just if no character of it is one. -/
theorem hasNul_eq_false_iff {text : String} :
    hasNul text = false ↔ ∀ c ∈ text.toList, (c != '\x00') = true := by
  simp only [hasNul_eq_any, List.any_eq_false, bne, Bool.not_eq_true', Bool.not_eq_true]

/-- What stands before the first NUL (`beforeNul`) holds none. -/
theorem hasNul_beforeNul (text : String) : hasNul (beforeNul text) = false := by
  rw [hasNul_eq_false_iff, beforeNul, String.toList_ofList]
  exact fun _ => List.mem_takeWhile_imp

/-- A text stands whole before its first NUL just if it holds none (`hasNul`). -/
theorem beforeNul_eq_self_iff {text : String} : beforeNul text = text ↔ hasNul text = false := by
  constructor
  · intro h
    rw [← h]
    exact hasNul_beforeNul text
  · intro h
    rw [beforeNul, List.takeWhile_eq_self_iff.2 (hasNul_eq_false_iff.1 h), String.ofList_toList]

/-- A text that goes on is cut by `beforeNul` in its first part, if that holds a NUL, and else in
what follows. -/
theorem beforeNul_append (s t : String) :
    beforeNul (s ++ t) = if hasNul s then beforeNul s else s ++ beforeNul t := by
  rw [beforeNul, String.toList_append]
  split
  case isTrue h =>
    have hcut : (s.toList.takeWhile (· != '\x00')).length ≠ s.toList.length := by
      intro hlength
      have hself := (List.takeWhile_sublist (· != '\x00')).eq_of_length hlength
      rw [hasNul_eq_false_iff.2 (List.takeWhile_eq_self_iff.1 hself)] at h
      cases h
    rw [List.takeWhile_append, if_neg hcut, beforeNul]
  case isFalse h =>
    rw [List.takeWhile_append_of_pos (hasNul_eq_false_iff.1 (Bool.not_eq_true _ ▸ h)),
      String.ofList_append, String.ofList_toList, beforeNul]

/-- Of the bytes of a text in a field `fieldText` takes those before its first NUL. -/
theorem fieldText_encode (text : String) (n : Nat) :
    fieldText (Utf8.encode text ++ List.replicate n 0) = Utf8.encode (beforeNul text) := by
  rw [Utf8.encode, Utf8.encode, beforeNul, String.toList_ofList]
  induction text.toList with
  | nil => cases n <;> simp [fieldText, List.replicate_succ]
  | cons c cs ih =>
    rw [List.flatMap_cons, List.takeWhile_cons, List.append_assoc, fieldText]
    split
    case isTrue h =>
      rw [List.takeWhile_append_of_pos ?_, List.flatMap_cons]
      · exact congrArg (String.utf8EncodeChar c ++ ·) ih
      · have hnone := Utf8.any_encodeChar c
        rw [beq_eq_false_iff_ne.2 (bne_iff_ne.1 h), List.any_eq_false] at hnone
        exact fun b hb => bne_iff_ne.2 fun hzero => hnone b hb (beq_iff_eq.2 hzero)
    case isFalse h =>
      obtain rfl : c = '\x00' := by simpa using h
      rfl

/-- What stands before the first NUL (`beforeNul`) is no longer than the text. -/
theorem size_beforeNul_le (text : String) :
    (beforeNul text).utf8ByteSize ≤ text.utf8ByteSize := by
  rw [← Utf8.length_encode, ← Utf8.length_encode, ← fieldText_encode text 0, List.replicate_zero,
    List.append_nil]
  exact (List.takeWhile_sublist _).length_le

/-- Of a text that is put into a field by `encodeField` the part before its first NUL comes back. -/
theorem decodeField_encodeField_eq {what what' : String} {width : Nat} {text : String}
    {field : Bytes} (h : encodeField what width text = .ok field) :
    decodeField what' field = .ok (beforeNul text) := by
  obtain ⟨-, rfl⟩ := encodeField_eq_ok_iff.1 h
  rw [decodeField, fieldText_encode, Utf8.decode_encode]
  rfl

/-! ## What is read from a field -/

/-- What `decodeField` reads from a field is encoded as the field's bytes before the first NUL. -/
theorem encode_of_decodeField {what : String} {field : Bytes} {text : String}
    (h : decodeField what field = .ok text) : Utf8.encode text = fieldText field := by
  unfold decodeField at h
  cases hd : Utf8.decode (fieldText field) with
  | error _ =>
    rw [hd] at h
    cases h
  | ok read =>
    rw [hd] at h
    cases h
    exact Utf8.encode_of_decode_eq_ok hd

/-- What `decodeField` reads from a field holds no NUL. -/
theorem hasNul_of_decodeField {what : String} {field : Bytes} {text : String}
    (h : decodeField what field = .ok text) : hasNul text = false := by
  rw [hasNul, encode_of_decodeField h, List.any_eq_false]
  intro b hb
  simpa [fieldText] using List.mem_takeWhile_imp hb

/-- What `decodeField` reads from a field is no longer than the field. -/
theorem size_le_of_decodeField {what : String} {field : Bytes} {text : String}
    (h : decodeField what field = .ok text) : text.utf8ByteSize ≤ field.length := by
  rw [← Utf8.length_encode, encode_of_decodeField h]
  exact (List.takeWhile_sublist _).length_le

/-- What `decodeField` reads from a field is as long as the field just if no NUL ends it. -/
theorem size_eq_iff_of_decodeField {what : String} {field : Bytes} {text : String}
    (h : decodeField what field = .ok text) : text.utf8ByteSize = field.length ↔ 0 ∉ field := by
  rw [← Utf8.length_encode, encode_of_decodeField h, fieldText]
  constructor
  · intro hlength
    have hself := (List.takeWhile_sublist (· != 0)).eq_of_length hlength
    intro hzero
    simpa using List.takeWhile_eq_self_iff.1 hself 0 hzero
  · intro hzero
    refine congrArg List.length (List.takeWhile_eq_self_iff.2 fun b hb => ?_)
    exact bne_iff_ne.2 fun hb0 => hzero (hb0 ▸ hb)

end KeyWatch
