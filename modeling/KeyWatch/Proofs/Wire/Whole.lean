import KeyWatch.Proofs.Wire.RoundTrip

/-!
# Requests read in steps and decoded whole

The server reads a request off its source in two steps, first the code and then the key if the code
calls for one (`Request.read`). The same request can be decoded from all its bytes at once, whatever
stands behind them (`Request.decode`). The two agree on every stream (`Request.agrees_read`): they
give the same request or the same fault, and what the reader leaves begins just behind the request,
so that the next one is read from its first byte.

They differ only on bytes that end before the request does (`Request.IsShort`), and there they have
to. For the decoder such bytes are malformed, while the reader has found the end of the stream: it
is a clean end before the code, and behind the code the client has gone.
-/

namespace KeyWatch

variable {ε : Type}

namespace Request

/-- Whether a byte is the code of an operation on a key (`OpCode`). -/
def CallsForKey (b : UInt8) : Prop := b = OpCode.subscribe.toByte ∨ b = OpCode.unsubscribe.toByte

/-- Bytes that end before the request does with which they begin: there are none, or the code
`CallsForKey` and the key is not there whole. -/
def IsShort : Bytes → Prop
  | [] => True
  | b :: payload => CallsForKey b ∧ payload.length < textWidth

/-- The size of a request on the wire: its code, and a field if it has a key (`textWidth`). -/
def frameSize : Request → Nat
  | connect | disconnect => 1
  | subscribe _ | unsubscribe _ => 1 + textWidth

/-! ## What the code calls for -/

/-- A code that `CallsForKey` calls for the bytes of a field. -/
theorem CallsForKey.payloadWidth_eq {b : UInt8} (h : CallsForKey b) :
    payloadWidth b = textWidth := by
  rcases h with rfl | rfl <;> rfl

/-- A code that does not `CallsForKey` calls for no bytes. -/
theorem payloadWidth_of_not_callsForKey {b : UInt8} (h : ¬CallsForKey b) : payloadWidth b = 0 := by
  unfold payloadWidth
  split
  case h_1 hop => exact absurd (.inl (OpCode.toByte_of_ofByte? hop).symm) h
  case h_2 hop => exact absurd (.inr (OpCode.toByte_of_ofByte? hop).symm) h
  case h_3 => rfl

/-- Where the code calls for no key, `decode` looks at the code alone. -/
theorem decode_of_not_callsForKey {b : UInt8} (h : ¬CallsForKey b) (payload : Bytes) :
    decode (b :: payload) = decode [b] := by
  simp only [decode]
  cases hop : OpCode.ofByte? b with
  | none => rfl
  | some op =>
    have hcode := OpCode.toByte_of_ofByte? hop
    cases op with
    | connect | disconnect => rfl
    | subscribe => exact absurd (.inl hcode.symm) h
    | unsubscribe => exact absurd (.inr hcode.symm) h

/-- Where the code calls for a key, `decode` gives the operation on that key. -/
theorem CallsForKey.decode_eq {b : UInt8} (h : CallsForKey b) :
    ∃ make : String → Request, ∀ payload, decode (b :: payload) = (decodeKey payload).map make := by
  rcases h with rfl | rfl
  · exact ⟨subscribe, fun _ => rfl⟩
  · exact ⟨unsubscribe, fun _ => rfl⟩

/-- A key is decoded by `decodeKey` whatever stands behind it. -/
theorem decodeKey_append {key : Bytes} (h : key.length = textWidth) (rest : Bytes) :
    decodeKey (key ++ rest) = decodeField "key" key := by
  have hlong : ¬(key ++ rest).length < textWidth := by
    rw [List.length_append, h]
    exact Nat.not_lt.2 (Nat.le_add_right _ _)
  rw [decodeKey, if_neg hlong, List.take_left' h]

/-- An operation on a key is decoded by `decode` whatever stands behind it. -/
theorem decode_append {b : UInt8} (hb : CallsForKey b) {key : Bytes} (h : key.length = textWidth)
    (rest : Bytes) : decode (b :: (key ++ rest)) = decode (b :: key) := by
  obtain ⟨make, hmake⟩ := hb.decode_eq
  have hkey := decodeKey_append h []
  rw [List.append_nil] at hkey
  rw [hmake, hmake, decodeKey_append h, hkey]

/-- A request that `decode` gives is as long as its code says (`payloadWidth`). -/
theorem frameSize_of_decode {b : UInt8} {payload : Bytes} {r : Request}
    (h : decode (b :: payload) = .ok r) : r.frameSize = 1 + payloadWidth b := by
  simp only [decode] at h
  unfold payloadWidth
  cases hop : OpCode.ofByte? b with
  | none =>
    rw [hop] at h
    cases h
  | some op =>
    rw [hop] at h
    cases op with
    | connect | disconnect =>
      cases h
      rfl
    | subscribe | unsubscribe =>
      cases hkey : decodeKey payload with
      | error _ =>
        rw [hkey] at h
        cases h
      | ok _ =>
        rw [hkey] at h
        cases h
        rfl

/-- Bytes that end before the request are no request by `decode`. -/
theorem decode_of_short {b : UInt8} {payload : Bytes} (hb : CallsForKey b)
    (h : payload.length < textWidth) :
    decode (b :: payload) = .error (.shortKey textWidth payload.length) := by
  obtain ⟨make, hmake⟩ := hb.decode_eq
  rw [hmake, decodeKey, if_pos h]
  rfl

/-- A key that is no text is no key by `decode`, whatever stands behind it. -/
theorem decode_of_notText {b : UInt8} {key : Bytes} {fault : Utf8.Fault} (hb : CallsForKey b)
    (h : key.length = textWidth) (hkey : Utf8.decode (fieldText key) = .error fault)
    (rest : Bytes) : decode (b :: (key ++ rest)) = .error (.notText "key" fault) := by
  obtain ⟨make, hmake⟩ := hb.decode_eq
  rw [hmake, decodeKey_append h, decodeField, hkey]
  rfl

/-! ## What is read -/

section
variable {source : Source ε} (hs : source.Steady)
include hs

/-- Unless the stream ends before the request, what `read` gives is what is decoded, and the reader
leaves what stands behind the request. -/
theorem read_of_whole (h : ¬IsShort source.content) :
    (read source).result = ((decode source.content).mapError .protocol).map some ∧
      ∃ b frame, source.content = b :: (frame ++ Source.content (read source).rest) ∧
        frame.length = payloadWidth b := by
  cases hcontent : source.content with
  | nil => exact absurd hcontent fun hnil => h (hnil ▸ trivial)
  | cons b payload =>
    by_cases hb : CallsForKey b
    · have hlong : textWidth ≤ payload.length :=
        Nat.not_lt.1 fun hlt => h (hcontent ▸ ⟨hb, hlt⟩)
      have hlength : (payload.take textWidth).length = textWidth := List.length_take_of_le hlong
      rw [← List.take_append_drop textWidth payload] at hcontent ⊢
      obtain ⟨hresult, hleft, -⟩ := read_of_key hs hb.payloadWidth_eq hlength hcontent
      rw [hleft, decode_append hb hlength]
      exact ⟨hresult, b, _, rfl, hlength.trans hb.payloadWidth_eq.symm⟩
    · have hwidth := payloadWidth_of_not_callsForKey hb
      obtain ⟨hresult, hleft, -⟩ := read_of_code hs hwidth hcontent
      rw [hleft, decode_of_not_callsForKey hb]
      exact ⟨hresult, b, [], rfl, hwidth.symm⟩

/-- Where the stream ends inside a key, or before it, `read` reports that the client has gone. -/
theorem read_of_short {b : UInt8} {payload : Bytes} (hb : CallsForKey b)
    (hshort : payload.length < textWidth) (hcontent : source.content = b :: payload) :
    ∃ e, (read source).result = .error e ∧ e.isDisconnect = true := by
  replace hcontent : source.content = [b] ++ payload := hcontent
  obtain ⟨hcode, hbehind, hsteady, -⟩ := readFrame_of_frame "request" Nat.one_pos hs rfl hcontent
  have hne : ¬payloadWidth b = 0 := by
    rw [hb.payloadWidth_eq]
    decide
  by_cases hnil : payload = []
  · have hkey : 0 < textWidth := by decide
    obtain ⟨hresult, -⟩ := readFrame_of_end "request key" hkey hsteady (hbehind.trans hnil)
    refine ⟨.io closedBeforeKey, ?_, rfl⟩
    simp only [read, hcode, if_neg hne, readPayload, hresult]
  · have hresult := readFrame_of_short "request key" hsteady (hbehind ▸ hnil)
      (show (Source.content _).length < textWidth by rwa [hbehind])
    refine ⟨.io (truncated "request key" payload.length textWidth), ?_, rfl⟩
    simp only [read, hcode, if_neg hne, readPayload, hresult, Received.decode, hbehind]

/-- Where the stream ends before the request (`IsShort`), neither reader nor decoder finds one. -/
theorem not_ok_of_short (h : IsShort source.content) (r : Request) :
    (read source).result ≠ .ok (some r) ∧ decode source.content ≠ .ok r := by
  cases hcontent : source.content with
  | nil =>
    obtain ⟨hresult, -⟩ := readsEnd source hs hcontent
    rw [hresult]
    exact ⟨nofun, nofun⟩
  | cons b payload =>
    rw [hcontent] at h
    obtain ⟨hb, hshort⟩ := h
    obtain ⟨e, hresult, -⟩ := read_of_short hs hb hshort hcontent
    rw [hresult, decode_of_short hb hshort]
    exact ⟨nofun, nofun⟩

end

/-! ## Reading and decoding -/

/-- The reading of a request off a stream agrees with the decoding of the stream's bytes by
`decode`. -/
structure Agrees (b : Bytes) (r : Received ε Request) : Prop where
  /-- Both give the same requests. -/
  ok : ∀ request, r.result = .ok (some request) ↔ decode b = .ok request
  /-- What is read is just the bytes of the request. -/
  taken : ∀ request, decode b = .ok request →
    ∃ frame, frame.length = request.frameSize ∧ b = frame ++ Source.content r.rest
  /-- Of an unknown code both say the same, and only the code is read. -/
  unknown : ∀ code rest, b = code :: rest → OpCode.ofByte? code = none →
    decode b = .error (.unknownOp code) ∧ r.result = .error (.protocol (.unknownOp code)) ∧
      Source.content r.rest = rest
  /-- Of a key that is no text both say the same, and the key is read. -/
  notText : ∀ code key rest fault, b = code :: (key ++ rest) → CallsForKey code →
    key.length = textWidth → Utf8.decode (fieldText key) = .error fault →
      decode b = .error (.notText "key" fault) ∧
        r.result = .error (.protocol (.notText "key" fault)) ∧ Source.content r.rest = rest
  /-- Unless the bytes end before the request, both give the same. -/
  same : ¬IsShort b → r.result = ((decode b).mapError .protocol).map some
  /-- Without bytes there is no request for the reader, and a malformed one for the decoder. -/
  empty : b = [] → r.result = .ok none ∧ decode b = .error .emptyRequest
  /-- Where the bytes end before the key does, the client has gone for the reader, and the key is
  malformed for the decoder. -/
  short : ∀ code payload, b = code :: payload → CallsForKey code → payload.length < textWidth →
    (∃ e, r.result = .error e ∧ e.isDisconnect = true) ∧
      decode b = .error (.shortKey textWidth payload.length)

/-- A request that `read` reads off a stream, whatever the pieces in which it arrives, is the
request decoded from the bytes of the stream (`Agrees`). -/
theorem agrees_read {source : Source ε} (hs : source.Steady) :
    Agrees source.content (read source) where
  ok request := by
    by_cases h : IsShort source.content
    · obtain ⟨hread, hdecode⟩ := not_ok_of_short hs h request
      exact ⟨fun hr => absurd hr hread, fun hd => absurd hd hdecode⟩
    · rw [(read_of_whole hs h).1]
      cases decode source.content with
      | error _ => exact ⟨nofun, nofun⟩
      | ok r =>
        change Except.ok (some r) = Except.ok (some request) ↔ _
        rw [Except.ok.injEq, Option.some.injEq, Except.ok.injEq]
  taken request hrequest := by
    have h : ¬IsShort source.content := fun h => (not_ok_of_short hs h request).2 hrequest
    obtain ⟨-, b, frame, hcontent, hlength⟩ := read_of_whole hs h
    refine ⟨b :: frame, ?_, hcontent⟩
    rw [hcontent] at hrequest
    rw [frameSize_of_decode hrequest, List.length_cons, hlength, Nat.add_comm]
  unknown code rest hcontent hcode := by
    have hdecode : decode source.content = .error (.unknownOp code) := by
      rw [hcontent]
      simp only [decode, hcode]
    have hwidth : payloadWidth code = 0 := by
      simp only [payloadWidth, hcode]
    obtain ⟨hresult, hleft, -⟩ := read_of_code hs hwidth hcontent
    have hsame : decode [code] = .error (.unknownOp code) := by simp only [decode, hcode]
    rw [hsame] at hresult
    exact ⟨hdecode, hresult, hleft⟩
  notText code key rest fault hcontent hcode hlength hkey := by
    obtain ⟨hresult, hleft, -⟩ := read_of_key hs hcode.payloadWidth_eq hlength hcontent
    rw [← decode_append hcode hlength rest, decode_of_notText hcode hlength hkey] at hresult
    exact ⟨hcontent ▸ decode_of_notText hcode hlength hkey rest, hresult, hleft⟩
  same h := (read_of_whole hs h).1
  empty hcontent := ⟨(readsEnd source hs hcontent).1, hcontent ▸ rfl⟩
  short code payload hcontent hcode hshort :=
    ⟨read_of_short hs hcode hshort hcontent, hcontent ▸ decode_of_short hcode hshort⟩

/-- A subscription of which the code arrives before an interruption and the key after it, with the
code of another request in the same piece (`agrees_read`). -/
def cutBehindCode : Source Unit :=
  [.bytes [0x33], .fail ⟨.interrupted, "boom"⟩, .bytes (0x6B :: List.replicate 40 0 ++ [0x32])]

/-- The subscription of `cutBehindCode` is read off its 42 bytes, and the other request is left. -/
theorem agrees_read_cutBehindCode :
    cutBehindCode.Steady ∧ (read cutBehindCode).result = .ok (some (.subscribe "k")) ∧
      Source.content (read cutBehindCode).rest = [0x32] := by
  have hsteady : cutBehindCode.Steady := by
    simp [cutBehindCode, Source.Steady, Piece.Steady]
  have hagrees := agrees_read hsteady
  have hdecode : decode cutBehindCode.content = .ok (.subscribe "k") := rfl
  obtain ⟨frame, hlength, hcontent⟩ := hagrees.taken _ hdecode
  refine ⟨hsteady, (hagrees.ok _).2 hdecode, ?_⟩
  have hleft := congrArg (List.drop (subscribe "k").frameSize) hcontent
  rw [List.drop_left' hlength] at hleft
  exact hleft.symm

end Request

end KeyWatch
