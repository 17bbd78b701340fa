import KeyWatch.Text.Utf8

/-!
# UTF-8 backwards

Bytes that decode are the encoding of the text that they are decoded to (`encode_of_decode_eq_ok`),
since the bounds on a sequence leave each character just one form (`encodeChar_of_lead`). So bytes
that decode are read as the same text where replacement characters are put in
(`lossy_of_decode_eq_ok`), and whatever is read so is spelt with bytes that were there or those of
the replacement character (`mem_of_mem_encode_lossy`). And a byte that is zero stands in the
encoding of a NUL alone (`any_encodeChar`).
-/

namespace KeyWatch

/-! ## Results -/

/-- A step after another gives a result only if the first one does. So a decoder in several steps is
taken apart without opening it. -/
theorem exists_of_bind_eq_ok {ε α β : Type} {f : α → Except ε β} {x : Except ε α} {b : β}
    (h : (x >>= f) = .ok b) : ∃ a, x = .ok a ∧ f a = .ok b := by
  cases x with
  | error _ => cases h
  | ok a => exact ⟨a, rfl, h⟩

/-- What is made of a result by `Except.map` comes from a result. -/
theorem exists_of_map_eq_ok {ε α β : Type} {f : α → β} {x : Except ε α} {b : β}
    (h : x.map f = .ok b) : ∃ a, x = .ok a ∧ f a = b := by
  cases x with
  | error _ => cases h
  | ok a => exact ⟨a, rfl, Except.ok.inj h⟩

namespace Utf8

/-! ## What decodes is encoded back -/

/-- The number of the character that is made of a valid number is that number. -/
theorem toNat_ofNat {n : Nat} (h : n.isValidChar) : (Char.ofNat n).val.toNat = n := by
  rw [Char.ofNat, dif_pos h]
  rfl

/-- The byte that is made of a byte's number is that byte. -/
theorem ofNat_eq_byte {n : Nat} {b : UInt8} (h : n = b.toNat) : UInt8.ofNat n = b := by
  rw [h, UInt8.ofNat_toNat]

/-- A `continuation` that gives a character has its next byte, which lies within the bounds, and
goes on behind it. -/
theorem continuation_succ_eq_char {n low high read bits : Nat} {rest : Bytes} {c : Char}
    (h : continuation (n + 1) low high read bits rest = .char c) :
    ∃ b tail, rest = b :: tail ∧ low ≤ b.toNat ∧ b.toNat ≤ high ∧
      continuation n 0x80 0xBF (read + 1) (bits * 64 + b.toNat % 64) tail = .char c := by
  cases rest with
  | nil => cases h
  | cons b tail =>
    rw [continuation] at h
    split at h
    case isTrue hbounds => exact ⟨b, tail, rfl, hbounds.1, hbounds.2, h⟩
    case isFalse => cases h

/-- A sequence of two bytes that `lead` reads is the encoding of the character that it gives, since
the bounds leave no overlong form. -/
theorem encodeChar_two {b : UInt8} {rest : Bytes} {c : Char} {bits low high : Nat}
    (h : continuation 1 low high 1 bits rest = .char c) (hb : b.toNat = bits + 0xC0)
    (hbits : 2 ≤ bits ∧ bits ≤ 0x1F) (hlow : 0x80 ≤ low) (hhigh : high ≤ 0xBF) :
    ∃ mid more, rest = mid ++ more ∧ String.utf8EncodeChar c = b :: mid := by
  obtain ⟨b1, tail, rfl, hl, hh, h⟩ := continuation_succ_eq_char h
  cases h
  refine ⟨[b1], tail, rfl, ?_⟩
  have hv : (bits * 64 + b1.toNat % 64).isValidChar := .inl (by omega)
  rw [String.utf8EncodeChar, toNat_ofNat hv]
  rw [if_neg (by omega), if_pos (by omega), ofNat_eq_byte (b := b) (by omega),
    ofNat_eq_byte (b := b1) (by omega)]

/-- A sequence of three bytes that `lead` reads is the encoding of the character that it gives,
since the bounds leave no overlong form and no surrogate. -/
theorem encodeChar_three {b : UInt8} {rest : Bytes} {c : Char} {bits low high : Nat}
    (h : continuation 2 low high 1 bits rest = .char c) (hb : b.toNat = bits + 0xE0)
    (hbits : bits ≤ 0xF) (hlow : 0x80 ≤ low) (hhigh : high ≤ 0xBF)
    (hover : bits = 0 → 0xA0 ≤ low) (hsurrogate : bits = 0xD → high ≤ 0x9F) :
    ∃ mid more, rest = mid ++ more ∧ String.utf8EncodeChar c = b :: mid := by
  obtain ⟨b1, tail, rfl, hl, hh, h⟩ := continuation_succ_eq_char h
  obtain ⟨b2, tail, rfl, hl2, hh2, h⟩ := continuation_succ_eq_char h
  cases h
  refine ⟨[b1, b2], tail, rfl, ?_⟩
  have hv : ((bits * 64 + b1.toNat % 64) * 64 + b2.toNat % 64).isValidChar := by
    unfold Nat.isValidChar
    omega
  rw [String.utf8EncodeChar, toNat_ofNat hv]
  rw [if_neg (by omega), if_neg (by omega), if_pos (by omega), ofNat_eq_byte (b := b) (by omega),
    ofNat_eq_byte (b := b1) (by omega), ofNat_eq_byte (b := b2) (by omega)]

/-- A sequence of four bytes that `lead` reads is the encoding of the character that it gives, since
the bounds leave no overlong form and no number above U+10FFFF. -/
theorem encodeChar_four {b : UInt8} {rest : Bytes} {c : Char} {bits low high : Nat}
    (h : continuation 3 low high 1 bits rest = .char c) (hb : b.toNat = bits + 0xF0)
    (hbits : bits ≤ 4) (hlow : 0x80 ≤ low) (hhigh : high ≤ 0xBF)
    (hover : bits = 0 → 0x90 ≤ low) (hlast : bits = 4 → high ≤ 0x8F) :
    ∃ mid more, rest = mid ++ more ∧ String.utf8EncodeChar c = b :: mid := by
  obtain ⟨b1, tail, rfl, hl, hh, h⟩ := continuation_succ_eq_char h
  obtain ⟨b2, tail, rfl, hl2, hh2, h⟩ := continuation_succ_eq_char h
  obtain ⟨b3, tail, rfl, hl3, hh3, h⟩ := continuation_succ_eq_char h
  cases h
  refine ⟨[b1, b2, b3], tail, rfl, ?_⟩
  have hv : (((bits * 64 + b1.toNat % 64) * 64 + b2.toNat % 64) * 64 +
      b3.toNat % 64).isValidChar := by
    unfold Nat.isValidChar
    omega
  rw [String.utf8EncodeChar, toNat_ofNat hv]
  rw [if_neg (by omega), if_neg (by omega), if_neg (by omega), ofNat_eq_byte (b := b) (by omega),
    ofNat_eq_byte (b := b1) (by omega), ofNat_eq_byte (b := b2) (by omega),
    ofNat_eq_byte (b := b3) (by omega)]

/-- What a byte that opens a sequence says of it (`opening?`): the bytes that follow, the bits that
the byte holds, and the bounds of the second byte, by which no form is overlong and no character is
a surrogate or above U+10FFFF. -/
theorem opening?_eq_some {b : Nat} {o : Opening} (h : opening? b = some o) :
    (0x80 ≤ o.low ∧ o.high ≤ 0xBF) ∧
    ((o.following = 1 ∧ b = o.bits + 0xC0 ∧ 2 ≤ o.bits ∧ o.bits ≤ 0x1F) ∨
      (o.following = 2 ∧ b = o.bits + 0xE0 ∧ o.bits ≤ 0xF ∧ (o.bits = 0 → 0xA0 ≤ o.low) ∧
        (o.bits = 0xD → o.high ≤ 0x9F)) ∨
      (o.following = 3 ∧ b = o.bits + 0xF0 ∧ o.bits ≤ 4 ∧ (o.bits = 0 → 0x90 ≤ o.low) ∧
        (o.bits = 4 → o.high ≤ 0x8F))) := by
  unfold opening? at h
  repeat' split at h
  case isFalse => cases h
  all_goals
    obtain rfl := Option.some.inj h
    dsimp only
    omega

/-- Bytes at which `lead` reads a character begin with the encoding of that character, whichever of
the four lengths it has. -/
theorem encodeChar_of_lead {b : UInt8} {rest : Bytes} {c : Char} (h : lead b rest = .char c) :
    ∃ mid more, rest = mid ++ more ∧ String.utf8EncodeChar c = b :: mid := by
  unfold lead at h
  split at h
  case isTrue hascii =>
    cases h
    refine ⟨[], rest, rfl, ?_⟩
    rw [String.utf8EncodeChar, toNat_ofNat (.inl (by omega)), if_pos (by omega),
      UInt8.ofNat_toNat]
  case isFalse hascii =>
    split at h
    case h_2 => cases h
    case h_1 o ho =>
      obtain ⟨⟨hlow, hhigh⟩, ⟨hn, hb, hbits⟩ | ⟨hn, hb, hbits, hover, hlast⟩ |
        ⟨hn, hb, hbits, hover, hlast⟩⟩ := opening?_eq_some ho
      · rw [hn] at h
        exact encodeChar_two h hb hbits hlow hhigh
      · rw [hn] at h
        exact encodeChar_three h hb hbits hlow hhigh hover hlast
      · rw [hn] at h
        exact encodeChar_four h hb hbits hlow hhigh hover hlast

/-- Bytes that decode to some characters are the encoding of these characters. -/
theorem encodeChars_of_decodeFrom {index : Nat} {b : Bytes} {cs : List Char}
    (h : decodeFrom index 0 b = .ok cs) : cs.flatMap String.utf8EncodeChar = b := by
  induction hn : b.length using Nat.strongRecOn generalizing index b cs with
  | ind n ih =>
    cases b with
    | nil =>
      cases h
      rfl
    | cons x rest =>
      rw [decodeFrom] at h
      cases hlead : lead x rest with
      | broken => simp [hlead] at h
      | cut => simp [hlead] at h
      | char c =>
        simp only [hlead] at h
        obtain ⟨mid, more, rfl, hchar⟩ := encodeChar_of_lead hlead
        have hsize : c.utf8Size - 1 = mid.length := by
          rw [← String.length_utf8EncodeChar, hchar, List.length_cons, Nat.add_sub_cancel]
        rw [hsize, decodeFrom_skip _ _ _ (by simp), List.drop_left] at h
        obtain ⟨cs, hmore, rfl⟩ := exists_of_map_eq_ok h
        have hshort : more.length < n := by
          rw [← hn, List.length_cons, List.length_append]
          omega
        rw [List.flatMap_cons, hchar, ih _ hshort hmore rfl, List.cons_append]

/-- What decodes is the encoding of what it is decoded to: `encode` undoes `decode`. So every text
has one form in bytes. -/
theorem encode_of_decode_eq_ok {b : Bytes} {s : String} (h : decode b = .ok s) : encode s = b := by
  obtain ⟨cs, hcs, rfl⟩ := exists_of_map_eq_ok h
  rw [encode, String.toList_ofList]
  exact encodeChars_of_decodeFrom hcs

/-! ## What is read with replacement characters -/

/-- Bytes that decode to some characters are read as the same where replacement characters are put
in. -/
theorem lossyFrom_of_decodeFrom {index skip : Nat} {b : Bytes} {cs : List Char}
    (h : decodeFrom index skip b = .ok cs) : lossyFrom skip b = cs := by
  induction b generalizing index skip cs with
  | nil =>
    cases skip <;>
    · cases h
      rfl
  | cons x rest ih =>
    cases skip with
    | succ skip => exact ih h
    | zero =>
      rw [decodeFrom] at h
      rw [lossyFrom]
      cases hlead : lead x rest with
      | broken => simp [hlead] at h
      | cut => simp [hlead] at h
      | char c =>
        simp only [hlead] at h
        obtain ⟨cs, hrest, rfl⟩ := exists_of_map_eq_ok h
        exact congrArg (c :: ·) (ih hrest)

/-- Bytes that `decode` need no replacement character: `lossy` reads the same text. -/
theorem lossy_of_decode_eq_ok {b : Bytes} {s : String} (h : decode b = .ok s) : lossy b = s := by
  obtain ⟨cs, hcs, rfl⟩ := exists_of_map_eq_ok h
  rw [lossy, lossyFrom_of_decodeFrom hcs]

/-- A byte in the encoding of a character that `lossyFrom` reads is one of the bytes read, or one of
the replacement character. -/
theorem mem_of_mem_lossyFrom {skip : Nat} {b : Bytes} {c : Char} {x : UInt8}
    (hc : c ∈ lossyFrom skip b) (hx : x ∈ String.utf8EncodeChar c) :
    x ∈ b ∨ x ∈ String.utf8EncodeChar '\uFFFD' := by
  induction b generalizing skip with
  | nil => cases skip <;> cases hc
  | cons y rest ih =>
    cases skip with
    | succ skip => exact (ih hc).imp_left (List.mem_cons_of_mem y)
    | zero =>
      rw [lossyFrom] at hc
      cases hlead : lead y rest with
      | char d =>
        simp only [hlead, List.mem_cons] at hc
        rcases hc with rfl | hc
        · obtain ⟨mid, more, rfl, hchar⟩ := encodeChar_of_lead hlead
          rw [hchar, List.mem_cons] at hx
          refine .inl (List.mem_cons.2 (hx.imp_right ?_))
          exact List.mem_append_left more
        · exact (ih hc).imp_left (List.mem_cons_of_mem y)
      | broken length =>
        simp only [hlead, List.mem_cons] at hc
        rcases hc with rfl | hc
        · exact .inr hx
        · exact (ih hc).imp_left (List.mem_cons_of_mem y)
      | cut =>
        simp only [hlead, List.mem_singleton] at hc
        exact .inr (hc ▸ hx)

/-- The text that `lossy` reads from bytes is spelt with these bytes and those of the replacement
character. -/
theorem mem_of_mem_encode_lossy {b : Bytes} {x : UInt8} (h : x ∈ encode (lossy b)) :
    x ∈ b ∨ x ∈ String.utf8EncodeChar '\uFFFD' := by
  rw [encode, lossy, String.toList_ofList] at h
  obtain ⟨c, hc, hx⟩ := List.mem_flatMap.1 h
  exact mem_of_mem_lossyFrom hc hx

/-! ## The byte that is zero -/

/-- A byte that is made of a positive number below 256 is not zero. -/
theorem ofNat_beq_zero {n : Nat} (hpos : 0 < n) (h : n < 256) : (UInt8.ofNat n == 0) = false := by
  rw [beq_eq_false_iff_ne, ne_eq, ← UInt8.toNat_inj, UInt8.toNat_ofNat_of_lt' h]
  exact Nat.ne_of_gt hpos

/-- Only the encoding of a NUL holds a byte that is zero, so a field is cut at a NUL and nowhere
else (`fieldText`). -/
theorem any_encodeChar (c : Char) :
    (String.utf8EncodeChar c).any (· == 0) = (c == '\x00') := by
  rcases Decidable.em (c = '\x00') with rfl | hc
  · rfl
  · have hpos : 0 < c.val.toNat := by
      refine Nat.pos_of_ne_zero fun h => hc (Char.ext (UInt32.toNat_inj.1 h))
    have hvalid : c.val.toNat.isValidChar := c.valid
    have hmax : c.val.toNat < 0x110000 := by
      unfold Nat.isValidChar at hvalid
      omega
    rw [beq_eq_false_iff_ne.2 hc, String.utf8EncodeChar]
    generalize c.val.toNat = n at hpos hmax
    -- the first byte of a longer sequence and those that follow it are above ASCII
    repeat' split
    all_goals
      simp (disch := omega) only [List.any_cons, List.any_nil, ofNat_beq_zero, Bool.or_self]

end Utf8

end KeyWatch
