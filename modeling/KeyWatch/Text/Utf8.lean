/-!
# Text as bytes

UTF-8 in both directions. `encode` gives the bytes of a text; `decode` gives the text back or says
where and how the bytes leave the encoding (`Fault`); `lossy` puts a replacement character in the
place of what cannot be read. A sequence is judged by its first byte, which fixes how many bytes
follow and the bounds of the second (`opening?`), so overlong forms, surrogates and values above
U+10FFFF fail at the second byte.
-/

namespace KeyWatch

/-- A string of bytes, such as a frame on the wire, the content of a file or a path. -/
abbrev Bytes := List UInt8

namespace Utf8

/-- The UTF-8 bytes of a text, character by character. What was encoded reads back by `decode`
(`decode_encode`). -/
def encode (s : String) : Bytes := s.toList.flatMap String.utf8EncodeChar

/-- Why bytes are not UTF-8: a sequence is broken after `length` of its bytes, or the bytes end
inside a sequence. Both name the index of the first byte of the sequence. -/
inductive Fault where
  | broken (length index : Nat)
  | cut (index : Nat)
  deriving DecidableEq, Repr

/-- The wording of a `Fault`, which names the length of a broken sequence and its index. -/
def Fault.message : Fault → String
  | .broken length index =>
    "invalid utf-8 sequence of " ++ toString length ++ " bytes from index " ++ toString index
  | .cut index => "incomplete utf-8 byte sequence from index " ++ toString index

/-- How a byte above ASCII opens a sequence (`opening?`): the bytes that follow it, the bounds of
the second byte, and the bits of the character that the first byte holds itself. -/
structure Opening where
  following : Nat
  low : Nat
  high : Nat
  bits : Nat

/-- The sequence that a byte above ASCII opens, or `none` if no sequence starts with it. The bounds
of the second byte leave out overlong forms, surrogates and numbers above U+10FFFF. -/
def opening? (b : Nat) : Option Opening :=
  if 0xC2 ≤ b ∧ b ≤ 0xDF then some ⟨1, 0x80, 0xBF, b % 32⟩
  else if b = 0xE0 then some ⟨2, 0xA0, 0xBF, b % 16⟩
  else if b = 0xED then some ⟨2, 0x80, 0x9F, b % 16⟩
  else if 0xE1 ≤ b ∧ b ≤ 0xEF then some ⟨2, 0x80, 0xBF, b % 16⟩
  else if b = 0xF0 then some ⟨3, 0x90, 0xBF, b % 8⟩
  else if 0xF1 ≤ b ∧ b ≤ 0xF3 then some ⟨3, 0x80, 0xBF, b % 8⟩
  else if b = 0xF4 then some ⟨3, 0x80, 0x8F, b % 8⟩
  else none

/-- What stands at the start of some bytes (`lead`): a character, a sequence that is broken after
some of its bytes, or one that the end of the bytes cuts short. -/
inductive Lead where
  | char (c : Char)
  | broken (length : Nat)
  | cut

/-- Reads the bytes of a sequence behind the first `read`, whose bits are worth `bits`. The next
byte must lie between `low` and `high`, and the ones after it between 0x80 and 0xBF. -/
def continuation : (following low high read bits : Nat) → Bytes → Lead
  | 0, _, _, _, bits, _ => .char (Char.ofNat bits)
  | _ + 1, _, _, _, _, [] => .cut
  | n + 1, low, high, read, bits, b :: rest =>
    if low ≤ b.toNat ∧ b.toNat ≤ high then
      continuation n 0x80 0xBF (read + 1) (bits * 64 + b.toNat % 64) rest
    else .broken read

/-- What stands at the start of some bytes, the first of which is `b`: a character of ASCII, or the
sequence that `b` opens (`opening?`, `continuation`). -/
def lead (b : UInt8) (rest : Bytes) : Lead :=
  if b.toNat < 0x80 then .char (Char.ofNat b.toNat)
  else match opening? b.toNat with
    | some o => continuation o.following o.low o.high 1 o.bits rest
    | none => .broken 1

/-- The characters behind the next `skip` bytes, which belong to a character that was read, or the
first `Fault`. The argument `index` counts the bytes before. -/
def decodeFrom : (index skip : Nat) → Bytes → Except Fault (List Char)
  | _, _, [] => .ok []
  | index, skip + 1, _ :: rest => decodeFrom (index + 1) skip rest
  | index, 0, b :: rest =>
    match lead b rest with
    | .char c => (decodeFrom (index + 1) (c.utf8Size - 1) rest).map (c :: ·)
    | .broken length => .error (.broken length index)
    | .cut => .error (.cut index)

/-- The characters that some bytes encode, or the first `Fault` from their start (`decodeFrom`). -/
def decodeChars (b : Bytes) : Except Fault (List Char) := decodeFrom 0 0 b

/-- The text that some bytes encode, or the first `Fault`. It gives back what `encode` wrote
(`decode_encode`). -/
def decode (b : Bytes) : Except Fault String := (decodeChars b).map String.ofList

/-- The characters behind the next `skip` bytes, with U+FFFD for each sequence that `lead` finds
broken or cut short. -/
def lossyFrom : (skip : Nat) → Bytes → List Char
  | _, [] => []
  | skip + 1, _ :: rest => lossyFrom skip rest
  | 0, b :: rest =>
    match lead b rest with
    | .char c => c :: lossyFrom (c.utf8Size - 1) rest
    | .broken length => '\uFFFD' :: lossyFrom (length - 1) rest
    | .cut => ['\uFFFD']

/-- The text of some bytes, with U+FFFD for each sequence that is broken or cut short (`lossyFrom`),
so that any bytes can be shown. -/
def lossy (b : Bytes) : String := String.ofList (lossyFrom 0 b)

/-! ## What is encoded reads back -/

/-- A byte that is made of a number below 256 has that number, so the arithmetic of `encode` can be
followed in `Nat`. -/
theorem toNat_byte {n : Nat} (h : n < 256) : (UInt8.ofNat n).toNat = n :=
  UInt8.toNat_ofNat_of_lt' h

/-- A byte that holds six bits of a number, as those behind the first byte of a sequence do, is read
by `continuation` as these bits, if it lies within the bounds. -/
theorem continuation_cons {low high : Nat} (n read bits k : Nat) (rest : Bytes)
    (hlow : low ≤ k % 64 + 128) (hhigh : k % 64 + 128 ≤ high) :
    continuation (n + 1) low high read bits (UInt8.ofNat (k % 64 + 128) :: rest) =
      continuation n 0x80 0xBF (read + 1) (bits * 64 + k % 64) rest := by
  have hbyte : (UInt8.ofNat (k % 64 + 128)).toNat = k % 64 + 128 := toNat_byte (by omega)
  rw [continuation, hbyte, if_pos ⟨hlow, hhigh⟩]
  congr 2
  omega

/-- A byte above ASCII that opens a sequence is read by `lead` with the bytes behind it, within the
bounds that `opening?` gives. -/
theorem lead_of_opening? {k following low high bits : Nat}
    (h : opening? k = some ⟨following, low, high, bits⟩) (hlow : 0x80 ≤ k) (hhigh : k < 256)
    (rest : Bytes) :
    lead (UInt8.ofNat k) rest = continuation following low high 1 bits rest := by
  rw [lead, toNat_byte hhigh, if_neg (Nat.not_lt.2 hlow), h]

/-- The one byte of a number of ASCII is read by `lead` as its character. -/
theorem lead_one {n : Nat} (h : n ≤ 0x7F) (rest : Bytes) :
    lead (UInt8.ofNat n) rest = .char (Char.ofNat n) := by
  rw [lead, toNat_byte (by omega), if_pos (by omega)]

/-- The two bytes of a number above ASCII and below U+0800 are read by `lead` as its character. -/
theorem lead_two {n : Nat} (hlow : 0x7F < n) (hhigh : n ≤ 0x7FF) (rest : Bytes) :
    lead (UInt8.ofNat (n / 64 % 32 + 192)) (UInt8.ofNat (n % 64 + 128) :: rest) =
      .char (Char.ofNat n) := by
  have hopen : opening? (n / 64 % 32 + 192) = some ⟨1, 0x80, 0xBF, n / 64⟩ := by
    rw [opening?, if_pos (by omega)]
    congr 2
    omega
  rw [lead_of_opening? hopen (by omega) (by omega),
    continuation_cons _ _ _ _ _ (by omega) (by omega), continuation]
  congr 2
  omega

/-- The first of the three bytes of a number from U+0800 on and below U+10000 opens a sequence
(`opening?`) whose bounds the second byte keeps, since the number is no surrogate. -/
theorem opening?_three {n : Nat} (hlow : 0x7FF < n) (hhigh : n ≤ 0xFFFF)
    (hvalid : n < 0xD800 ∨ 0xDFFF < n) :
    ∃ low high, opening? (n / 4096 % 16 + 224) = some ⟨2, low, high, n / 4096⟩ ∧
      low ≤ n / 64 % 64 + 128 ∧ n / 64 % 64 + 128 ≤ high := by
  have hbits : (n / 4096 % 16 + 224) % 16 = n / 4096 := by omega
  rw [opening?, if_neg (by omega), hbits]
  by_cases hleast : n / 4096 % 16 + 224 = 0xE0
  · exact ⟨_, _, if_pos hleast, by omega, by omega⟩
  rw [if_neg hleast]
  by_cases hsurrogate : n / 4096 % 16 + 224 = 0xED
  · exact ⟨_, _, if_pos hsurrogate, by omega, by omega⟩
  rw [if_neg hsurrogate, if_pos (by omega)]
  exact ⟨_, _, rfl, by omega, by omega⟩

/-- The three bytes of a number from U+0800 on and below U+10000 are read by `lead` as its
character. -/
theorem lead_three {n : Nat} (hlow : 0x7FF < n) (hhigh : n ≤ 0xFFFF)
    (hvalid : n < 0xD800 ∨ 0xDFFF < n) (rest : Bytes) :
    lead (UInt8.ofNat (n / 4096 % 16 + 224))
        (UInt8.ofNat (n / 64 % 64 + 128) :: UInt8.ofNat (n % 64 + 128) :: rest) =
      .char (Char.ofNat n) := by
  obtain ⟨low, high, hopen, hl, hh⟩ := opening?_three hlow hhigh hvalid
  rw [lead_of_opening? hopen (by omega) (by omega), continuation_cons _ _ _ _ _ hl hh,
    continuation_cons _ _ _ _ _ (by omega) (by omega), continuation]
  congr 2
  omega

/-- The first of the four bytes of a number from U+10000 on opens a sequence (`opening?`) whose
bounds the second byte keeps, since the number is that of a character. -/
theorem opening?_four {n : Nat} (hlow : 0xFFFF < n) (hhigh : n < 0x110000) :
    ∃ low high, opening? (n / 262144 % 8 + 240) = some ⟨3, low, high, n / 262144⟩ ∧
      low ≤ n / 4096 % 64 + 128 ∧ n / 4096 % 64 + 128 ≤ high := by
  have hbits : (n / 262144 % 8 + 240) % 8 = n / 262144 := by omega
  rw [opening?, if_neg (by omega), if_neg (by omega), if_neg (by omega), if_neg (by omega), hbits]
  by_cases hleast : n / 262144 % 8 + 240 = 0xF0
  · exact ⟨_, _, if_pos hleast, by omega, by omega⟩
  rw [if_neg hleast]
  by_cases hmiddle : 0xF1 ≤ n / 262144 % 8 + 240 ∧ n / 262144 % 8 + 240 ≤ 0xF3
  · exact ⟨_, _, if_pos hmiddle, by omega, by omega⟩
  rw [if_neg hmiddle, if_pos (by omega)]
  exact ⟨_, _, rfl, by omega, by omega⟩

/-- The four bytes of a number from U+10000 on are read by `lead` as its character. -/
theorem lead_four {n : Nat} (hlow : 0xFFFF < n) (hhigh : n < 0x110000) (rest : Bytes) :
    lead (UInt8.ofNat (n / 262144 % 8 + 240))
        (UInt8.ofNat (n / 4096 % 64 + 128) :: UInt8.ofNat (n / 64 % 64 + 128) ::
          UInt8.ofNat (n % 64 + 128) :: rest) =
      .char (Char.ofNat n) := by
  obtain ⟨low, high, hopen, hl, hh⟩ := opening?_four hlow hhigh
  rw [lead_of_opening? hopen (by omega) (by omega), continuation_cons _ _ _ _ _ hl hh,
    continuation_cons _ _ _ _ _ (by omega) (by omega),
    continuation_cons _ _ _ _ _ (by omega) (by omega), continuation]
  congr 2
  omega

/-- The encoding of a character has a first byte, at which `lead` reads the character, whatever
follows the encoding. There is one case for each length (`lead_one` to `lead_four`). -/
theorem exists_lead_encodeChar (c : Char) (rest : Bytes) :
    ∃ b mid, String.utf8EncodeChar c = b :: mid ∧ lead b (mid ++ rest) = .char c := by
  have hchar : Char.ofNat c.val.toNat = c := c.ofNat_toNat
  have hvalid : c.val.toNat < 0xD800 ∨ 0xDFFF < c.val.toNat ∧ c.val.toNat < 0x110000 := c.valid
  rw [String.utf8EncodeChar]
  generalize c.val.toNat = n at hvalid hchar
  rw [← hchar]
  split
  case isTrue hone => exact ⟨_, _, rfl, lead_one hone rest⟩
  case isFalse hone =>
    split
    case isTrue htwo => exact ⟨_, _, rfl, lead_two (Nat.not_le.1 hone) htwo rest⟩
    case isFalse htwo =>
      split
      case isTrue hthree =>
        exact ⟨_, _, rfl, lead_three (Nat.not_le.1 htwo) hthree (by omega) rest⟩
      case isFalse hthree =>
        exact ⟨_, _, rfl, lead_four (Nat.not_le.1 hthree) (by omega) rest⟩

/-- Bytes that start with the encoding of a character start with a byte at which `lead` reads it,
and behind as many bytes as the character has stands what followed it. This is how `decodeFrom`
meets a character. -/
theorem lead_encodeChar (c : Char) (rest : Bytes) :
    ∃ b tail, String.utf8EncodeChar c ++ rest = b :: tail ∧ lead b tail = .char c ∧
      tail.drop (c.utf8Size - 1) = rest := by
  obtain ⟨b, mid, hencode, hlead⟩ := exists_lead_encodeChar c rest
  have hsize : c.utf8Size - 1 = mid.length := by
    rw [← String.length_utf8EncodeChar, hencode, List.length_cons, Nat.add_sub_cancel]
  refine ⟨b, mid ++ rest, by rw [hencode, List.cons_append], hlead, ?_⟩
  rw [hsize, List.drop_left]

/-- To skip bytes in `decodeFrom` is to decode what stands behind them, with an index that counts
them. -/
theorem decodeFrom_skip (index skip : Nat) (b : Bytes) (h : skip ≤ b.length) :
    decodeFrom index skip b = decodeFrom (index + skip) 0 (b.drop skip) := by
  induction skip generalizing index b with
  | zero => rfl
  | succ n ih =>
    cases b with
    | nil => simp at h
    | cons x rest =>
      rw [decodeFrom, ih (index + 1) rest (by simpa using h), List.drop_succ_cons]
      congr 1
      omega

/-- Characters that were encoded one after another decode to themselves, at whatever index they
stand. -/
theorem decodeFrom_encodeChars (index : Nat) (cs : List Char) :
    decodeFrom index 0 (cs.flatMap String.utf8EncodeChar) = .ok cs := by
  induction cs generalizing index with
  | nil => rfl
  | cons c cs ih =>
    obtain ⟨b, tail, hcat, hlead, hdrop⟩ :=
      lead_encodeChar c (cs.flatMap String.utf8EncodeChar)
    have hlen : (String.utf8EncodeChar c).length = c.utf8Size := String.length_utf8EncodeChar c
    have htail : c.utf8Size - 1 ≤ tail.length := by
      have := congrArg List.length hcat
      simp only [List.length_append, List.length_cons, hlen] at this
      omega
    rw [List.flatMap_cons, hcat, decodeFrom]
    simp only [hlead]
    rw [decodeFrom_skip _ _ _ htail, hdrop, ih]
    rfl

/-- Every text reads back: `decode` undoes `encode`. All round trips of fields and frames rest on
this. -/
theorem decode_encode (s : String) : decode (encode s) = .ok s := by
  simp [decode, decodeChars, encode, decodeFrom_encodeChars, Except.map]

/-- The bytes of two texts put together are the bytes of the one and then those of the other. -/
theorem encode_append (s t : String) : encode (s ++ t) = encode s ++ encode t := by
  rw [encode, String.toList_append, List.flatMap_append]
  rfl

/-- A text has as many bytes under `encode` as its size in UTF-8 says, which is what limits on keys,
values and paths count. -/
theorem length_encode (s : String) : (encode s).length = s.utf8ByteSize := by
  have h := congrArg String.toByteArray (String.ofList_toList (s := s))
  rw [String.toByteArray_ofList] at h
  rw [← String.size_toByteArray, ← h]
  simp [encode, List.utf8Encode]

end Utf8

end KeyWatch
