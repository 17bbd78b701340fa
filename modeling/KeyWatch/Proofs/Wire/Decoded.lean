import KeyWatch.Proofs.Wire.Encoded

/-!
# What comes of a value that is decoded

What a reader gives has no NUL in it, and what it gives of a registration has no blanks, so a writer
can only refuse it for its length. It does refuse some (`encode_of_decode`). A field has room for a
NUL behind the longest text, but no reader asks for that NUL, and so a field without one is read as
a text that is too long by a byte. And of a registration the readers measure the id alone, not the
paths, which may be as long as the frame.

Whatever is within the limits is accepted by its writer, and then it is read back.
-/

namespace KeyWatch

/-! ## Words -/

namespace Text

/-- A word that `splitWords` finds is not empty, holds no blank, and is made of characters of its
text. -/
theorem of_mem_splitWords {word cs w : List Char} (hword : word.any isBlank = false)
    (h : w ∈ splitWords word cs) :
    w ≠ [] ∧ w.any isBlank = false ∧ ∀ c ∈ w, c ∈ word ∨ c ∈ cs := by
  fun_induction splitWords word cs with
  | case1 => cases h
  | case2 word hne =>
    obtain rfl := List.mem_singleton.1 h
    refine ⟨by simpa using hne, by simpa using hword, fun c hc => .inl (List.mem_reverse.1 hc)⟩
  | case3 word c rest hc hempty ih =>
    obtain ⟨hne, hblank, hmem⟩ := ih rfl h
    refine ⟨hne, hblank, fun d hd => .inr (List.mem_cons_of_mem c ?_)⟩
    exact (hmem d hd).resolve_left List.not_mem_nil
  | case4 word c rest hc hne ih =>
    rcases List.mem_cons.1 h with rfl | h
    · exact ⟨by simpa using hne, by simpa using hword, fun d hd => .inl (List.mem_reverse.1 hd)⟩
    · obtain ⟨hne, hblank, hmem⟩ := ih rfl h
      refine ⟨hne, hblank, fun d hd => .inr (List.mem_cons_of_mem c ?_)⟩
      exact (hmem d hd).resolve_left List.not_mem_nil
  | case5 word c rest hc ih =>
    have hgrown : (c :: word).any isBlank = false := by
      rw [List.any_cons, hword, Bool.or_false]
      exact Bool.not_eq_true _ ▸ hc
    obtain ⟨hne, hblank, hmem⟩ := ih hgrown h
    refine ⟨hne, hblank, fun d hd => ?_⟩
    rcases hmem d hd with hd | hd
    · rcases List.mem_cons.1 hd with rfl | hd
      · exact .inr List.mem_cons_self
      · exact .inl hd
    · exact .inr (List.mem_cons_of_mem c hd)

/-- A word of a text without NUL (`Text.words`) is not empty and holds neither blank nor NUL. -/
theorem of_mem_words {text w : String} (hnul : KeyWatch.hasNul text = false) (h : w ∈ words text) :
    w ≠ "" ∧ hasBlank w = false ∧ KeyWatch.hasNul w = false := by
  obtain ⟨cs, hcs, rfl⟩ := List.mem_map.1 h
  obtain ⟨hne, hblank, hmem⟩ := of_mem_splitWords rfl hcs
  refine ⟨?_, ?_, ?_⟩
  · intro hempty
    exact hne (by simpa using congrArg String.toList hempty)
  · rw [hasBlank, String.toList_ofList]
    exact hblank
  · rw [hasNul_eq_false_iff, String.toList_ofList]
    exact fun c hc => hasNul_eq_false_iff.1 hnul c ((hmem c hc).resolve_left List.not_mem_nil)

end Text

/-! ## Fields -/

/-- A text that `decodeField` reads from a field of its own holds no NUL, and it is within the limit
just if a NUL ends it. Otherwise it is too long by a byte. -/
theorem of_decodeField {what : String} {field : Bytes} {text : String}
    (hwidth : field.length = textWidth) (h : decodeField what field = .ok text) :
    hasNul text = false ∧ (text.utf8ByteSize ≤ maxTextSize ↔ 0 ∈ field) ∧
      (¬text.utf8ByteSize ≤ maxTextSize → ∀ what,
        encodeField what textWidth text = .error (.tooLong what textWidth maxTextSize)) := by
  have hsize := size_le_of_decodeField h
  have hfull := size_eq_iff_of_decodeField h
  rw [hwidth] at hsize hfull
  have hlimit : text.utf8ByteSize = textWidth ↔ ¬text.utf8ByteSize ≤ maxTextSize := by
    unfold textWidth at hsize ⊢
    omega
  refine ⟨hasNul_of_decodeField h, ?_, fun hlong what => ?_⟩
  · rw [← not_iff_not, ← hfull, hlimit]
  · have hrefused := encodeField_of_lt (Nat.lt_of_not_le hlong) what
    rwa [hlimit.2 hlong] at hrefused

/-! ## Requests -/

namespace Request

/-- Whether the key of a request is within the limit `maxTextSize`. -/
def WithinLimits : Request → Prop
  | connect | disconnect => True
  | subscribe key | unsubscribe key => key.utf8ByteSize ≤ maxTextSize

/-- A request that is `WithinLimits` has a frame. -/
theorem exists_encode_of_withinLimits {r : Request} (h : r.WithinLimits) :
    ∃ frame, r.encode = .ok frame := by
  cases r with
  | connect => exact ⟨_, rfl⟩
  | disconnect => exact ⟨_, rfl⟩
  | subscribe key =>
    obtain ⟨field, hfield⟩ := exists_encodeField h "key"
    exact ⟨_, congrArg (Except.map _) hfield⟩
  | unsubscribe key =>
    obtain ⟨field, hfield⟩ := exists_encodeField h "key"
    exact ⟨_, congrArg (Except.map _) hfield⟩

/-- A key that `decodeKey` reads holds no NUL, and it is within the limit just if a NUL ends it. -/
theorem of_decodeKey {payload : Bytes} {key : String} (h : decodeKey payload = .ok key) :
    KeyWatch.hasNul key = false ∧
      (key.utf8ByteSize ≤ maxTextSize ↔ 0 ∈ payload.take textWidth) ∧
      (¬key.utf8ByteSize ≤ maxTextSize →
        encodeField "key" textWidth key = .error (.tooLong "key" textWidth maxTextSize)) := by
  unfold decodeKey at h
  split at h
  case isTrue => cases h
  case isFalse hlength =>
    obtain ⟨hnul, hlimit, hlong⟩ :=
      of_decodeField (List.length_take_of_le (Nat.le_of_not_lt hlength)) h
    exact ⟨hnul, hlimit, fun h => hlong h "key"⟩

/-- A request that `decode` reads holds no NUL, and it is within the limit just if it has no key or
a NUL ends the key. -/
theorem of_decode {x : UInt8} {payload : Bytes} {r : Request} (h : decode (x :: payload) = .ok r) :
    r.hasNul = false ∧ (r.WithinLimits ↔ payloadWidth x = 0 ∨ 0 ∈ payload.take textWidth) ∧
      (¬r.WithinLimits → r.encode = .error (.tooLong "key" textWidth maxTextSize)) := by
  have hwide : ¬textWidth = 0 := by decide
  rw [decode] at h
  rw [payloadWidth]
  cases hop : OpCode.ofByte? x with
  | none =>
    rw [hop] at h
    cases h
  | some op =>
    rw [hop] at h
    cases op with
    | connect =>
      cases h
      exact ⟨rfl, ⟨fun _ => .inl rfl, fun _ => trivial⟩, fun hnot => absurd trivial hnot⟩
    | disconnect =>
      cases h
      exact ⟨rfl, ⟨fun _ => .inl rfl, fun _ => trivial⟩, fun hnot => absurd trivial hnot⟩
    | subscribe =>
      obtain ⟨key, hkey, rfl⟩ := exists_of_map_eq_ok h
      obtain ⟨hnul, hlimit, hlong⟩ := of_decodeKey hkey
      exact ⟨hnul, hlimit.trans (or_iff_right hwide).symm,
        fun hnot => congrArg (Except.map _) (hlong hnot)⟩
    | unsubscribe =>
      obtain ⟨key, hkey, rfl⟩ := exists_of_map_eq_ok h
      obtain ⟨hnul, hlimit, hlong⟩ := of_decodeKey hkey
      exact ⟨hnul, hlimit.trans (or_iff_right hwide).symm,
        fun hnot => congrArg (Except.map _) (hlong hnot)⟩

end Request

/-! ## Notifications -/

namespace Notification

/-- Whether the texts of a notification are within the limit `maxTextSize`. -/
def WithinLimits (n : Notification) : Prop :=
  n.key.utf8ByteSize ≤ maxTextSize ∧ n.value.utf8ByteSize ≤ maxTextSize

/-- A notification that is `WithinLimits` has a frame. -/
theorem exists_encode_of_withinLimits {n : Notification} (h : n.WithinLimits) :
    ∃ frame, n.encode = .ok frame := by
  obtain ⟨key, hkey⟩ := exists_encodeField h.1 "key"
  obtain ⟨value, hvalue⟩ := exists_encodeField h.2 "value"
  refine ⟨key ++ value, ?_⟩
  rw [encode, hkey, hvalue]
  rfl

/-- What `read` gives from a pipe of bytes is what its first frame decodes to. -/
theorem decode_of_result_read {ε : Type} {b : Bytes} {n : Notification}
    (h : (read ([.bytes b] : Source ε)).result = .ok (some n)) :
    frameSize ≤ b.length ∧ decode (b.take frameSize) = .ok n := by
  have hlength : frameSize ≤ b.length := by
    refine Nat.le_of_not_lt fun hshort => ?_
    have hsteady : Source.Steady ([.bytes b] : Source ε) := by
      simp [Source.Steady, Piece.Steady]
    have hcontent : Source.content ([.bytes b] : Source ε) = b := by
      simp [Source.content, Piece.content]
    exact result_of_short hsteady (hcontent.symm ▸ hshort) n h
  refine ⟨hlength, ?_⟩
  have hread := result_read_of_frame (ε := ε) (List.length_take_of_le hlength) (b.drop frameSize)
  rw [List.take_append_drop, h] at hread
  cases hd : decode (b.take frameSize) with
  | error _ =>
    rw [hd] at hread
    cases hread
  | ok read =>
    rw [hd] at hread
    cases hread
    rfl

/-- A notification that `decode` reads holds no NUL, and each of its texts is within the limit just
if a NUL ends it. -/
theorem of_decode {frame : Bytes} {n : Notification} (hlength : frame.length = frameSize)
    (h : decode frame = .ok n) :
    n.hasNul = false ∧
      (n.WithinLimits ↔ 0 ∈ frame.take textWidth ∧ 0 ∈ frame.drop textWidth) ∧
      (¬n.WithinLimits → ∃ what, n.encode = .error (.tooLong what textWidth maxTextSize)) := by
  obtain ⟨key, hkey, h⟩ := exists_of_bind_eq_ok h
  obtain ⟨value, hvalue, h⟩ := exists_of_bind_eq_ok h
  cases h
  have hsize : frameSize = 2 * textWidth := rfl
  obtain ⟨hnul, hlimit, hlong⟩ := of_decodeField (by rw [List.length_take]; omega) hkey
  obtain ⟨hnul', hlimit', hlong'⟩ := of_decodeField (by rw [List.length_drop]; omega) hvalue
  refine ⟨by rw [hasNul, hnul, hnul', Bool.or_self], and_congr hlimit hlimit', fun hnot => ?_⟩
  rcases Decidable.em (key.utf8ByteSize ≤ maxTextSize) with hfits | hkeyLong
  · have hvalueLong : ¬value.utf8ByteSize ≤ maxTextSize := fun h => hnot ⟨hfits, h⟩
    obtain ⟨field, hfield⟩ := exists_encodeField hfits "key"
    refine ⟨"value", ?_⟩
    rw [encode, hfield, hlong' hvalueLong]
    rfl
  · refine ⟨"key", ?_⟩
    rw [encode, hlong hkeyLong]
    rfl

end Notification

/-! ## Registrations -/

namespace Registration

/-- Whether the paths and the id of a registration are within their limits, `maxPathSize` and
`maxTextSize`. -/
def WithinLimits (r : Registration) : Prop :=
  (∀ path ∈ [r.request, r.response, r.notification], path.bytes.length ≤ maxPathSize) ∧
    r.clientId.utf8ByteSize ≤ maxTextSize

/-- The words that `decode` reads a registration from, which hold no blank and no NUL. -/
theorem words_of_decode {frame : Bytes} {r : Registration} (h : decode frame = .ok r) :
    ∃ request response notification,
      (∀ word ∈ [request, response, notification, r.clientId],
        word ≠ "" ∧ Text.hasBlank word = false ∧ KeyWatch.hasNul word = false) ∧
        r.clientId.utf8ByteSize ≤ maxTextSize ∧
        r = ⟨.ofString request, .ofString response, .ofString notification, r.clientId⟩ := by
  obtain ⟨text, htext, h⟩ := exists_of_bind_eq_ok h
  have hnul := hasNul_of_decodeField htext
  unfold ofLine at h
  split at h
  case h_2 => cases h
  case h_1 first request response notification id hwords =>
    split at h
    case isFalse => cases h
    case isTrue =>
      split at h
      case isTrue => cases h
      case isFalse hid =>
        cases h
        refine ⟨request, response, notification, fun word hword => ?_, Nat.not_lt.1 hid, rfl⟩
        refine Text.of_mem_words hnul ?_
        rw [hwords]
        exact List.mem_cons_of_mem first hword

/-- A path beyond the limit `maxPathSize` is refused by `pathWord`. -/
theorem pathWord_of_lt {text : String} (h : maxPathSize < text.utf8ByteSize) (what : String) :
    pathWord what (.ofString text) = .error (.pathSize what maxPathSize text.utf8ByteSize) := by
  have hdecode : Utf8.decode (Path.ofString text).bytes = .ok text := Utf8.decode_encode text
  rw [pathWord, hdecode]
  exact if_pos (.inr h)

/-- A registration that `decode` reads holds no NUL. If its paths are within the limit it can be
written and read back, and otherwise it is refused for the length of a path. -/
theorem of_decode {frame : Bytes} {r : Registration} (h : decode frame = .ok r) :
    r.hasNul = false ∧ (r.WithinLimits → r.Fits) ∧
      (¬r.WithinLimits → ∃ what size, maxPathSize < size ∧
        r.encode = .error (.pathSize what maxPathSize size)) := by
  obtain ⟨request, response, notification, hwords, hid, hr⟩ := words_of_decode h
  generalize r.clientId = id at *
  subst hr
  simp only [List.forall_mem_cons, List.not_mem_nil, false_imp_iff, implies_true, and_true]
    at hwords
  obtain ⟨hrequest, hresponse, hnotification, hid'⟩ := hwords
  have isWord : ∀ {limit : Nat} {word : String}, word.utf8ByteSize ≤ limit →
      word ≠ "" ∧ Text.hasBlank word = false ∧ KeyWatch.hasNul word = false →
        IsWord limit word := by
    rintro limit word hsize ⟨hne, hblank, hnul⟩
    refine ⟨Nat.pos_of_ne_zero fun h => hne ?_, hsize, hnul, hblank⟩
    exact String.utf8ByteSize_eq_zero_iff.1 h
  have hlength : ∀ word : String, (Path.ofString word).bytes.length = word.utf8ByteSize :=
    Utf8.length_encode
  have hidWord := isWord hid hid'
  refine ⟨?_, ?_, ?_⟩
  · have hpath : ∀ word : String, KeyWatch.hasNul word = false →
        (Path.ofString word).bytes.any (· == 0) = false := fun _ h => h
    simp only [hasNul, hasNulPath, List.any_cons, List.any_nil, hpath _ hrequest.2.2,
      hpath _ hresponse.2.2, hpath _ hnotification.2.2, hid'.2.2, Bool.or_self]
  · rintro ⟨hpaths, -⟩
    simp only [List.forall_mem_cons, List.not_mem_nil, false_imp_iff, implies_true, and_true,
      hlength] at hpaths
    obtain ⟨hrequestSize, hresponseSize, hnotificationSize⟩ := hpaths
    exact ⟨request, response, notification, isWord hrequestSize hrequest,
      isWord hresponseSize hresponse, isWord hnotificationSize hnotification, hidWord, rfl⟩
  · intro hnot
    rw [encode, if_pos hidWord.isClientId]
    rcases Nat.lt_or_ge maxPathSize request.utf8ByteSize with hlong | hrequestSize
    · refine ⟨"request path", _, hlong, ?_⟩
      rw [pathWord_of_lt hlong]
      rfl
    rw [(isWord hrequestSize hrequest).pathWord]
    rcases Nat.lt_or_ge maxPathSize response.utf8ByteSize with hlong | hresponseSize
    · refine ⟨"response path", _, hlong, ?_⟩
      rw [pathWord_of_lt hlong]
      rfl
    rw [(isWord hresponseSize hresponse).pathWord]
    rcases Nat.lt_or_ge maxPathSize notification.utf8ByteSize with hlong | hnotificationSize
    · refine ⟨"notification path", _, hlong, ?_⟩
      rw [pathWord_of_lt hlong]
      rfl
    refine absurd ⟨?_, hid⟩ hnot
    simp only [List.forall_mem_cons, List.not_mem_nil, false_imp_iff, implies_true, and_true,
      hlength]
    exact ⟨hrequestSize, hresponseSize, hnotificationSize⟩

end Registration

/-! ## The three kinds -/

/-- What a writer makes of the values that a reader gives: it accepts a value just if it is within
the limits, and then the reader gives that value again (`restores`). -/
structure AcceptsJust {α : Type} (within : α → Prop) (encode : α → Except ProtocolFault Bytes)
    (gives : Bytes → α → Prop) : Prop where
  accepts : ∀ b a, gives b a → ((∃ frame, encode a = .ok frame) ↔ within a)
  restores : ∀ b a frame, gives b a → encode a = .ok frame → gives frame a

/-- A writer that accepts what is within the limits and refuses the rest of what is read accepts
just what is within them (`AcceptsJust`). -/
theorem AcceptsJust.of_refused {α : Type} {within : α → Prop}
    {encode : α → Except ProtocolFault Bytes} {gives : Bytes → α → Prop}
    (haccepts : ∀ b a, gives b a → within a → ∃ frame, encode a = .ok frame)
    (hrefuses : ∀ b a, gives b a → ¬within a → ∃ fault, encode a = .error fault)
    (hback : ∀ b a frame, gives b a → encode a = .ok frame → gives frame a) :
    AcceptsJust within encode gives where
  accepts b a h := by
    refine ⟨fun ⟨frame, hframe⟩ => ?_, haccepts b a h⟩
    refine Classical.byContradiction fun hnot => ?_
    obtain ⟨fault, hfault⟩ := hrefuses b a h hnot
    rw [hframe] at hfault
    cases hfault
  restores := hback

/-- Of the requests that are decoded `Request.encode` accepts just those within the limits. -/
theorem Request.acceptsJust :
    AcceptsJust WithinLimits encode (fun b r => decode b = .ok r) := by
  have hread : ∀ {b : Bytes} {r : Request}, decode b = .ok r → ∃ x payload, b = x :: payload := by
    intro b r h
    cases b with
    | nil => cases h
    | cons x payload => exact ⟨x, payload, rfl⟩
  refine .of_refused (fun _ _ _ => exists_encode_of_withinLimits) (fun b r h hnot => ?_)
    fun b r frame h hframe => ?_
  · obtain ⟨x, payload, rfl⟩ := hread h
    exact ⟨_, (of_decode h).2.2 hnot⟩
  · obtain ⟨x, payload, rfl⟩ := hread h
    rw [decode_eq_of_encode hframe, beforeNul_eq_self_iff.2 (of_decode h).1]

/-- Of the notifications that are read `Notification.encode` accepts just those within the
limits. -/
theorem Notification.acceptsJust (ε : Type) :
    AcceptsJust WithinLimits encode
      (fun b n => (read ([.bytes b] : Source ε)).result = .ok (some n)) := by
  refine .of_refused (fun _ _ _ => exists_encode_of_withinLimits) (fun b n h hnot => ?_)
    fun b n frame h hframe => ?_
  · obtain ⟨hlength, hdecode⟩ := decode_of_result_read h
    obtain ⟨what, hrefused⟩ := (of_decode (List.length_take_of_le hlength) hdecode).2.2 hnot
    exact ⟨_, hrefused⟩
  · obtain ⟨hlength, hdecode⟩ := decode_of_result_read h
    obtain ⟨hnul, -, -⟩ := of_decode (List.length_take_of_le hlength) hdecode
    rw [result_read_of_encode hframe, beforeNul_eq_self_iff.2 hnul]

/-- Of the registrations that are decoded `Registration.encode` accepts just those within the
limits. -/
theorem Registration.acceptsJust :
    AcceptsJust WithinLimits encode (fun b g => decode b = .ok g) := by
  refine .of_refused (fun b g h hwithin => ?_) (fun b g h hnot => ?_) fun b g frame h hframe => ?_
  · obtain ⟨frame, hframe, -, -⟩ := exists_encode ((of_decode h).2.1 hwithin)
    exact ⟨frame, hframe⟩
  · obtain ⟨what, size, -, hrefused⟩ := (of_decode h).2.2 hnot
    exact ⟨_, hrefused⟩
  · exact (decode_eq_self_iff hframe).2 (of_decode h).1

/-- What a reader gives is accepted by its writer just if it is within the limits (`AcceptsJust`),
and then it is read back. What is not within them is refused for its length: a text was read from a
field without a NUL, which gives a text that is a byte too long, or a path of a registration is too
long. The id of a registration never is. -/
theorem encode_of_decode (ε : Type) :
    (AcceptsJust Request.WithinLimits Request.encode (fun b r => Request.decode b = .ok r) ∧
      ∀ x payload (r : Request), Request.decode (x :: payload) = .ok r →
        (r.WithinLimits ↔ Request.payloadWidth x = 0 ∨ 0 ∈ payload.take textWidth) ∧
        (¬r.WithinLimits → r.encode = .error (.tooLong "key" textWidth maxTextSize))) ∧
    (AcceptsJust Notification.WithinLimits Notification.encode (fun b n =>
        (Notification.read ([.bytes b] : Source ε)).result = .ok (some n)) ∧
      ∀ b (n : Notification), (Notification.read ([.bytes b] : Source ε)).result = .ok (some n) →
        (n.WithinLimits ↔ 0 ∈ b.take textWidth ∧ 0 ∈ (b.drop textWidth).take textWidth) ∧
        (¬n.WithinLimits → ∃ what, n.encode = .error (.tooLong what textWidth maxTextSize))) ∧
    (AcceptsJust Registration.WithinLimits Registration.encode
        (fun b g => Registration.decode b = .ok g) ∧
      ∀ b (g : Registration), Registration.decode b = .ok g →
        g.clientId.utf8ByteSize ≤ maxTextSize ∧
        (¬g.WithinLimits → ∃ what size, Registration.maxPathSize < size ∧
          g.encode = .error (.pathSize what Registration.maxPathSize size))) := by
  refine ⟨⟨Request.acceptsJust, fun x payload r h => (Request.of_decode h).2⟩,
    ⟨Notification.acceptsJust ε, fun b n h => ?_⟩,
    ⟨Registration.acceptsJust, fun b g h => ⟨?_, ?_⟩⟩⟩
  · obtain ⟨hlength, hdecode⟩ := Notification.decode_of_result_read h
    obtain ⟨-, hlimit, hlong⟩ := Notification.of_decode (List.length_take_of_le hlength) hdecode
    have hsize : Notification.frameSize = 2 * textWidth := rfl
    rw [List.take_take, List.drop_take, Nat.min_eq_left (by omega),
      show Notification.frameSize - textWidth = textWidth from rfl] at hlimit
    exact ⟨hlimit, hlong⟩
  · obtain ⟨-, -, -, -, hid, -⟩ := Registration.words_of_decode h
    exact hid
  · exact (Registration.of_decode h).2.2

/-- A subscription that is read is accepted and read again (`encode_of_decode`), while a
notification whose value no NUL ends is refused. -/
theorem encode_of_decode_longValue :
    (∃ frame, Request.encode (.subscribe "k") = .ok frame) ∧
      ∃ n : Notification,
        (Notification.read ([.bytes (0x6B :: List.replicate 40 0 ++ List.replicate 41 0x76)] :
          Source Unit)).result = .ok (some n) ∧
        ∃ what, n.encode = .error (.tooLong what textWidth maxTextSize) := by
  obtain ⟨⟨hrequest, -⟩, ⟨-, hnotification⟩, -⟩ := encode_of_decode Unit
  have hkey : Request.decode (0x33 :: 0x6B :: List.replicate 40 0) = .ok (.subscribe "k") := by
    decide +kernel
  have hread : (Notification.read
      ([.bytes (0x6B :: List.replicate 40 0 ++ List.replicate 41 0x76)] : Source Unit)).result =
        .ok (some ⟨"k", String.ofList (List.replicate 41 'v')⟩) := by
    decide +kernel
  refine ⟨(hrequest.accepts _ _ hkey).2 (by unfold Request.WithinLimits; decide), _, hread, ?_⟩
  obtain ⟨hlimit, hlong⟩ := hnotification _ _ hread
  exact hlong fun hwithin => absurd (hlimit.1 hwithin).2 (by decide)

/-- The key of a frame without a NUL is read by `Request.decode`, but it is refused when it is
written. -/
theorem encode_of_decode_fails :
    ∃ r : Request, Request.decode (0x33 :: List.replicate 41 0x61) = .ok r ∧
      r.encode = .error (.tooLong "key" 41 40) ∧
      ¬∀ (b : Bytes) (r : Request), Request.decode b = .ok r → ∃ frame, r.encode = .ok frame := by
  have hread : Request.decode (0x33 :: List.replicate 41 0x61) =
      .ok (.subscribe (String.ofList (List.replicate 41 'a'))) := by
    decide +kernel
  have hrefused : Request.encode (.subscribe (String.ofList (List.replicate 41 'a'))) =
      .error (.tooLong "key" 41 40) := by
    decide +kernel
  refine ⟨_, hread, hrefused, fun hall => ?_⟩
  obtain ⟨frame, hframe⟩ := hall _ _ hread
  rw [hrefused] at hframe
  cases hframe

end KeyWatch
