import KeyWatch.Proofs.Wire.FieldText
import KeyWatch.Proofs.Wire.RoundTrip

/-!
# What comes of a value that is encoded

The writers look at the length of a text, and at its blanks where it has to be a word, but none
looks for a NUL, where the readers end a text. So a request or a notification that has a frame comes
back with its texts cut at their first NUL. Of a registration only the id can be cut and come back;
a NUL in a path leaves too few words for a registration. All come back as they were just if they
hold no NUL, and among such values no two have the same frame (`decode_of_encode`).

Values that do hold one share their frames with others: a key that ends in a NUL has the frame of
the key without it (`decode_of_encode_fails`).
-/

namespace KeyWatch

/-! ## Requests -/

namespace Request

/-- A request with its key up to the first NUL, as it comes back (`decode_eq_of_encode`). -/
def beforeNul : Request → Request
  | connect => connect
  | disconnect => disconnect
  | subscribe key => subscribe (KeyWatch.beforeNul key)
  | unsubscribe key => unsubscribe (KeyWatch.beforeNul key)

/-- Whether the key of a request holds a NUL; `encode` does not ask. -/
def hasNul : Request → Bool
  | connect | disconnect => false
  | subscribe key | unsubscribe key => KeyWatch.hasNul key

/-- A request with its key cut by `beforeNul` is of the same operation. -/
@[simp] theorem op_beforeNul (r : Request) : r.beforeNul.op = r.op := by
  cases r <;> rfl

/-- No request but that to disconnect becomes one by `beforeNul`. -/
theorem beforeNul_eq_disconnect_iff {r : Request} :
    r.beforeNul = .disconnect ↔ r = .disconnect := by
  cases r with
  | connect | disconnect => rfl
  | subscribe | unsubscribe => exact iff_of_false nofun nofun

/-- No request but that to connect becomes one by `beforeNul`. -/
theorem beforeNul_eq_connect_iff {r : Request} : r.beforeNul = .connect ↔ r = .connect := by
  cases r with
  | connect | disconnect => rfl
  | subscribe | unsubscribe => exact iff_of_false nofun nofun

/-- A request is what `beforeNul` leaves of it just if its key holds no NUL. -/
theorem beforeNul_eq_self_iff {r : Request} : r.beforeNul = r ↔ r.hasNul = false := by
  cases r with
  | connect => exact ⟨fun _ => rfl, fun _ => rfl⟩
  | disconnect => exact ⟨fun _ => rfl, fun _ => rfl⟩
  | subscribe key =>
    rw [beforeNul, subscribe.injEq]
    exact KeyWatch.beforeNul_eq_self_iff
  | unsubscribe key =>
    rw [beforeNul, unsubscribe.injEq]
    exact KeyWatch.beforeNul_eq_self_iff

/-- A request with a key that is too long is refused by `encode`. -/
theorem encode_of_lt {r : Request} {key : String} (hr : r = .subscribe key ∨ r = .unsubscribe key)
    (h : maxTextSize < key.utf8ByteSize) :
    r.encode = .error (.tooLong "key" key.utf8ByteSize maxTextSize) := by
  rcases hr with rfl | rfl
  · exact congrArg (Except.map _) (encodeField_of_lt h "key")
  · exact congrArg (Except.map _) (encodeField_of_lt h "key")

/-- Nothing but a request with a key that is too long is refused by `encode`. -/
theorem exists_of_encode_eq_error {r : Request} {fault : ProtocolFault}
    (h : r.encode = .error fault) : ∃ key, (r = .subscribe key ∨ r = .unsubscribe key) ∧
      maxTextSize < key.utf8ByteSize := by
  cases r with
  | connect => cases h
  | disconnect => cases h
  | subscribe key =>
    refine ⟨key, .inl rfl, Nat.lt_of_not_le fun hfits => ?_⟩
    obtain ⟨field, hfield⟩ := exists_encodeField hfits "key"
    rw [encode, hfield] at h
    cases h
  | unsubscribe key =>
    refine ⟨key, .inr rfl, Nat.lt_of_not_le fun hfits => ?_⟩
    obtain ⟨field, hfield⟩ := exists_encodeField hfits "key"
    rw [encode, hfield] at h
    cases h

/-- Of a key that `encodeField` puts into a field the part before its first NUL is read by
`decodeKey`. -/
theorem decodeKey_of_encodeField {key : String} {field : Bytes}
    (h : encodeField "key" textWidth key = .ok field) :
    decodeKey field = .ok (KeyWatch.beforeNul key) := by
  have hlength := length_encodeField h
  rw [decodeKey, if_neg (Nat.not_lt.2 (Nat.le_of_eq hlength.symm)),
    List.take_of_length_le (Nat.le_of_eq hlength)]
  exact decodeField_encodeField_eq h

/-- A request that is encoded comes back by `decode` with its key up to the first NUL. -/
theorem decode_eq_of_encode {r : Request} {frame : Bytes} (h : r.encode = .ok frame) :
    decode frame = .ok r.beforeNul := by
  cases r with
  | connect =>
    cases h
    rfl
  | disconnect =>
    cases h
    rfl
  | subscribe key =>
    obtain ⟨field, hfield, rfl⟩ := exists_of_map_eq_ok h
    exact congrArg (Except.map subscribe) (decodeKey_of_encodeField hfield)
  | unsubscribe key =>
    obtain ⟨field, hfield, rfl⟩ := exists_of_map_eq_ok h
    exact congrArg (Except.map unsubscribe) (decodeKey_of_encodeField hfield)

end Request

/-! ## Notifications -/

namespace Notification

/-- A notification with its texts up to their first NULs, as it comes back
(`decode_eq_of_encode`). -/
def beforeNul (n : Notification) : Notification :=
  ⟨KeyWatch.beforeNul n.key, KeyWatch.beforeNul n.value⟩

/-- Whether a text of a notification holds a NUL; `encode` does not ask. -/
def hasNul (n : Notification) : Bool := KeyWatch.hasNul n.key || KeyWatch.hasNul n.value

/-- A notification is what `beforeNul` leaves of it just if its texts hold no NUL. -/
theorem beforeNul_eq_self_iff {n : Notification} : n.beforeNul = n ↔ n.hasNul = false := by
  cases n with
  | mk key value =>
    rw [beforeNul, mk.injEq, KeyWatch.beforeNul_eq_self_iff, KeyWatch.beforeNul_eq_self_iff, hasNul,
      Bool.or_eq_false_iff]

/-- A notification that is encoded comes back by `decode` with its texts up to their first NULs. -/
theorem decode_eq_of_encode {n : Notification} {frame : Bytes} (h : n.encode = .ok frame) :
    decode frame = .ok n.beforeNul := by
  obtain ⟨key, value, hkey, hvalue, rfl⟩ := encode_eq_ok h
  rw [decode, List.take_left' (length_encodeField hkey), List.drop_left' (length_encodeField hkey),
    decodeField_encodeField_eq hkey, decodeField_encodeField_eq hvalue]
  rfl

/-- What stands in a frame is read by `read` from bytes that begin with it. -/
theorem result_read_of_frame {ε : Type} {frame : Bytes} (h : frame.length = frameSize)
    (rest : Bytes) :
    (read ([.bytes (frame ++ rest)] : Source ε)).result =
      ((decode frame).mapError .protocol).map some := by
  have hsteady : Source.Steady ([.bytes (frame ++ rest)] : Source ε) := by
    simp [Source.Steady, Piece.Steady]
  have hcontent : Source.content ([.bytes (frame ++ rest)] : Source ε) = frame ++ rest := by
    simp [Source.content, Piece.content]
  obtain ⟨hresult, -⟩ := readFrame_of_frame "notification" (by decide) hsteady h hcontent
  simp only [read, Received.decode, hresult]

/-- A notification is read by `read` from the frame that it was written to, with its texts cut. -/
theorem result_read_of_encode {ε : Type} {n : Notification} {frame : Bytes}
    (h : n.encode = .ok frame) :
    (read ([.bytes frame] : Source ε)).result = .ok (some n.beforeNul) := by
  have hread := result_read_of_frame (ε := ε) (length_encode h) []
  rw [List.append_nil, decode_eq_of_encode h] at hread
  exact hread

end Notification

/-! ## Registrations -/

namespace Registration

/-- Whether a text can stand as a word of a registration, of at most `limit` bytes, if it holds no
NUL; `encode` asks for no more. -/
def IsToken (limit : Nat) (text : String) : Prop :=
  0 < text.utf8ByteSize ∧ text.utf8ByteSize ≤ limit ∧ Text.hasBlank text = false

/-- A text that `IsToken` is not empty. -/
theorem IsToken.ne_empty {limit : Nat} {text : String} (h : IsToken limit text) : text ≠ "" := by
  rintro rfl
  exact Nat.lt_irrefl 0 h.1

/-- A path that `pathWord` accepts is a text that can stand as a word. -/
theorem pathWord_eq_ok {what : String} {path : Path} {text : String}
    (h : pathWord what path = .ok text) : path = .ofString text ∧ IsToken maxPathSize text := by
  unfold pathWord at h
  cases hd : Utf8.decode path.bytes with
  | error _ =>
    rw [hd] at h
    cases h
  | ok read =>
    rw [hd] at h
    simp only at h
    split at h
    case isTrue => cases h
    case isFalse hsize =>
      split at h
      case isTrue => cases h
      case isFalse hblank =>
        cases h
        refine ⟨?_, ?_⟩
        · rw [Path.ofString, Utf8.encode_of_decode_eq_ok hd]
        · exact ⟨by omega, by omega, Bool.not_eq_true _ ▸ hblank⟩

/-- An id that `isClientId` accepts is a text that can stand as a word. -/
theorem isToken_of_isClientId {id : String} (h : isClientId id = true) :
    IsToken maxTextSize id := by
  simp only [isClientId, Bool.and_eq_true, bne_iff_ne, decide_eq_true_eq, Bool.not_eq_true'] at h
  obtain ⟨⟨hne, hsize⟩, hblank⟩ := h
  exact ⟨Nat.pos_of_ne_zero hne, hsize, hblank⟩

/-- The words whose `line` a registration is encoded as. -/
theorem encode_eq_ok {r : Registration} {frame : Bytes} (h : r.encode = .ok frame) :
    ∃ request response notification,
      (∀ path ∈ [request, response, notification], IsToken maxPathSize path) ∧
        IsToken maxTextSize r.clientId ∧
        r = ⟨.ofString request, .ofString response, .ofString notification, r.clientId⟩ ∧
        encodeField "registration" frameSize (line request response notification r.clientId) =
          .ok frame := by
  unfold encode at h
  split at h
  case isFalse => cases h
  case isTrue hid =>
    obtain ⟨request, hrequest, h⟩ := exists_of_bind_eq_ok h
    obtain ⟨response, hresponse, h⟩ := exists_of_bind_eq_ok h
    obtain ⟨notification, hnotification, h⟩ := exists_of_bind_eq_ok h
    obtain ⟨hrequest, htoken⟩ := pathWord_eq_ok hrequest
    obtain ⟨hresponse, htoken'⟩ := pathWord_eq_ok hresponse
    obtain ⟨hnotification, htoken''⟩ := pathWord_eq_ok hnotification
    refine ⟨request, response, notification, ?_, isToken_of_isClientId hid, ?_, h⟩
    · simp [htoken, htoken', htoken'']
    · rw [← hrequest, ← hresponse, ← hnotification]

/-- A text without blanks is at most one word (`Text.words`). -/
theorem length_words_le {text : String} (h : Text.hasBlank text = false) :
    (Text.words text).length ≤ 1 := by
  rcases Decidable.em (text = "") with rfl | hne
  · exact Nat.zero_le _
  · rw [Text.words_of_not_hasBlank hne h]
    exact Nat.le_refl _

/-- Before the first NUL (`beforeNul`) of a text without blanks there are none either. -/
theorem hasBlank_beforeNul {text : String} (h : Text.hasBlank text = false) :
    Text.hasBlank (KeyWatch.beforeNul text) = false := by
  rw [Text.hasBlank, List.any_eq_false] at h ⊢
  rw [KeyWatch.beforeNul, String.toList_ofList]
  exact fun c hc => h c ((List.takeWhile_sublist _).mem hc)

/-- Of a word and what stands behind it, up to the first NUL, the word is left if it holds none, and
else what is left of it (`beforeNul`). -/
theorem words_beforeNul_append {word : String} (hne : word ≠ "")
    (hblank : Text.hasBlank word = false) (rest : String) :
    Text.words (KeyWatch.beforeNul (word ++ " " ++ rest)) =
      if KeyWatch.hasNul word then Text.words (KeyWatch.beforeNul word)
      else word :: Text.words (KeyWatch.beforeNul rest) := by
  have hspace : KeyWatch.hasNul " " = false := by decide
  rw [String.append_assoc, beforeNul_append, beforeNul_append, hspace]
  split
  case isTrue => rfl
  case isFalse =>
    rw [if_neg Bool.false_ne_true, ← String.append_assoc, Text.words_append hne hblank]

/-- The words of a row up to its first NUL (`beforeNul`) are those before the word that holds it and
what is left of that one. -/
theorem words_beforeNul_row {ws : List String} (hne : ∀ w ∈ ws, w ≠ "")
    (hblank : ∀ w ∈ ws, Text.hasBlank w = false) (final : String) :
    Text.words (KeyWatch.beforeNul (ws.foldr (fun w rest => w ++ " " ++ rest) final)) =
      ws.takeWhile (!KeyWatch.hasNul ·) ++
        Text.words (KeyWatch.beforeNul ((ws.dropWhile (!KeyWatch.hasNul ·)).headD final)) := by
  induction ws with
  | nil => rfl
  | cons w ws ih =>
    rw [List.forall_mem_cons] at hne hblank
    rw [List.foldr_cons, words_beforeNul_append hne.1 hblank.1, ih hne.2 hblank.2,
      List.takeWhile_cons, List.dropWhile_cons]
    cases KeyWatch.hasNul w with
    | true => rfl
    | false => rfl

/-- Up to the first NUL a row has fewer words than it had, if one before the last holds it
(`words_beforeNul_row`). -/
theorem length_words_beforeNul_row_le {ws : List String} (hne : ∀ w ∈ ws, w ≠ "")
    (hblank : ∀ w ∈ ws, Text.hasBlank w = false) (final : String)
    (hnul : ws.any KeyWatch.hasNul = true) :
    (Text.words
      (KeyWatch.beforeNul (ws.foldr (fun w rest => w ++ " " ++ rest) final))).length ≤
        ws.length := by
  have hdropped : ws.dropWhile (!KeyWatch.hasNul ·) ≠ [] := by
    rw [Ne, List.dropWhile_eq_nil_iff]
    simpa using hnul
  obtain ⟨w, rest, hcut⟩ := List.exists_cons_of_ne_nil hdropped
  have hmem : w ∈ ws := (List.dropWhile_sublist _).mem (hcut ▸ List.mem_cons_self)
  have hone := length_words_le (hasBlank_beforeNul (hblank w hmem))
  have hlength := congrArg List.length (List.takeWhile_append_dropWhile
    (p := (!KeyWatch.hasNul ·)) (l := ws))
  rw [hcut, List.length_append, List.length_cons] at hlength
  rw [words_beforeNul_row hne hblank, hcut, List.headD_cons, List.length_append]
  omega

/-- Fewer than five words are no registration by `ofLine`. -/
theorem ofLine_of_short {text : String} (h : (Text.words text).length < 5) :
    ofLine text = .error (.malformedRegistration text) := by
  unfold ofLine
  split
  case h_1 hwords =>
    rw [hwords] at h
    exact absurd h (by simp)
  case h_2 => rfl

/-- Whether one of the paths in a registration holds a NUL; `pathWord` does not ask. -/
def hasNulPath (r : Registration) : Bool :=
  [r.request, r.response, r.notification].any (·.bytes.any (· == 0))

/-- Whether a path or the id of a registration holds a NUL (`hasNulPath`). -/
def hasNul (r : Registration) : Bool := r.hasNulPath || KeyWatch.hasNul r.clientId

/-- A registration with its id up to the first NUL, as it comes back if it does
(`decode_eq_of_encode`). -/
def beforeNul (r : Registration) : Registration :=
  { r with clientId := KeyWatch.beforeNul r.clientId }

/-- The words of a line up to its first NUL: too few for a registration by `ofLine`, unless the NUL
stands inside the id or there is none. -/
theorem ofLine_beforeNul_line {request response notification id : String}
    (hpaths : ∀ path ∈ [request, response, notification], IsToken maxPathSize path)
    (hid : IsToken maxTextSize id) :
    let text := KeyWatch.beforeNul (line request response notification id)
    ofLine text =
      if [request, response, notification].any KeyWatch.hasNul ∨ KeyWatch.beforeNul id = "" then
        .error (.malformedRegistration text)
      else .ok ⟨.ofString request, .ofString response, .ofString notification,
        KeyWatch.beforeNul id⟩ := by
  intro text
  have htag : IsToken maxPathSize tag ∧ KeyWatch.hasNul tag = false := by
    unfold IsToken
    decide
  have htokens : ∀ word ∈ [tag, request, response, notification], IsToken maxPathSize word :=
    List.forall_mem_cons.2 ⟨htag.1, hpaths⟩
  have hne : ∀ word ∈ [tag, request, response, notification], word ≠ "" :=
    fun word hword => (htokens word hword).ne_empty
  have hblank : ∀ word ∈ [tag, request, response, notification], Text.hasBlank word = false :=
    fun word hword => (htokens word hword).2.2
  have hnuls : [tag, request, response, notification].any KeyWatch.hasNul =
      [request, response, notification].any KeyWatch.hasNul := by
    rw [List.any_cons, htag.2, Bool.false_or]
  have htext : text = KeyWatch.beforeNul
      ([tag, request, response, notification].foldr (fun w rest => w ++ " " ++ rest) id) := by
    simp only [text, line, List.foldr_cons, List.foldr_nil, String.append_assoc]
  -- unless a path holds a NUL, the words before the id stay and the id is cut
  have hwords (hnone : [request, response, notification].any KeyWatch.hasNul = false) :
      Text.words text = [tag, request, response, notification] ++
        Text.words (KeyWatch.beforeNul id) := by
    have hall : ∀ word ∈ [tag, request, response, notification],
        (!KeyWatch.hasNul word) = true := by
      rw [← hnuls, List.any_eq_false] at hnone
      simpa using hnone
    rw [htext, words_beforeNul_row hne hblank, List.takeWhile_eq_self_iff.2 hall,
      List.dropWhile_eq_nil_iff.2 hall, List.headD_nil]
  split
  case isTrue hcut =>
    refine ofLine_of_short (Nat.lt_succ_of_le ?_)
    cases hnone : [request, response, notification].any KeyWatch.hasNul with
    | true =>
      rw [htext]
      exact length_words_beforeNul_row_le hne hblank id (hnuls.trans hnone)
    | false =>
      have hempty : KeyWatch.beforeNul id = "" :=
        hcut.resolve_left (Bool.not_eq_true _ ▸ hnone)
      rw [hwords hnone, hempty]
      exact Nat.le_refl 4
  case isFalse hwhole =>
    obtain ⟨hnone, hleft⟩ := not_or.1 hwhole
    have hfive := hwords (Bool.not_eq_true _ ▸ hnone)
    rw [Text.words_of_not_hasBlank hleft (hasBlank_beforeNul hid.2.2)] at hfive
    have hsize : ¬maxTextSize < (KeyWatch.beforeNul id).utf8ByteSize :=
      Nat.not_lt.2 (Nat.le_trans (size_beforeNul_le id) hid.2.1)
    rw [ofLine, hfive]
    simp only [List.cons_append, List.nil_append, if_true, if_neg hsize]

/-- A registration that is encoded comes back by `decode` with its id up to the first NUL, unless a
path holds one or nothing is left of the id. -/
theorem decode_eq_of_encode {r : Registration} {frame : Bytes} (h : r.encode = .ok frame) :
    if r.hasNulPath ∨ r.beforeNul.clientId = "" then
      ∃ text, decode frame = .error (.malformedRegistration text)
    else decode frame = .ok r.beforeNul := by
  obtain ⟨request, response, notification, hpaths, hid, hr, hfield⟩ := encode_eq_ok h
  have hline := ofLine_beforeNul_line hpaths hid
  cases r with
  | mk p q n id =>
    cases hr
    have hdecode : decode frame =
        ofLine (KeyWatch.beforeNul (line request response notification id)) := by
      rw [decode, decodeField_encodeField_eq hfield]
      simp only [bind, Except.bind]
    have hnul : hasNulPath ⟨.ofString request, .ofString response, .ofString notification, id⟩ =
        [request, response, notification].any KeyWatch.hasNul := rfl
    rw [hdecode, hline, hnul]
    simp only [beforeNul]
    split
    case isTrue hcut => exact ⟨_, rfl⟩
    case isFalse hwhole => rfl

/-- A registration is what `beforeNul` leaves of it just if its id holds no NUL. -/
theorem beforeNul_eq_self_iff {r : Registration} :
    r.beforeNul = r ↔ KeyWatch.hasNul r.clientId = false := by
  cases r with
  | mk request response notification id =>
    simp only [beforeNul, mk.injEq, true_and]
    exact KeyWatch.beforeNul_eq_self_iff

/-- A registration that is encoded comes back by `decode` as it was just if it holds no NUL. -/
theorem decode_eq_self_iff {r : Registration} {frame : Bytes} (h : r.encode = .ok frame) :
    decode frame = .ok r ↔ r.hasNul = false := by
  have hdecode := decode_eq_of_encode h
  rw [hasNul, Bool.or_eq_false_iff, ← beforeNul_eq_self_iff]
  constructor
  · intro hback
    split at hdecode
    case isTrue =>
      obtain ⟨text, herror⟩ := hdecode
      rw [herror] at hback
      cases hback
    case isFalse hwhole =>
      obtain ⟨hpath, -⟩ := not_or.1 hwhole
      exact ⟨Bool.not_eq_true _ ▸ hpath, Except.ok.inj (hdecode.symm.trans hback)⟩
  · rintro ⟨hpath, hself⟩
    obtain ⟨-, -, -, -, hid, -, -⟩ := encode_eq_ok h
    rw [hself, hpath, if_neg (by simp [hid.ne_empty])] at hdecode
    exact hdecode

end Registration

/-! ## The three kinds -/

/-- What a writer and a reader make of the values that have frames: a value comes back as it was
just if it is plain, so no two plain ones have the same frame (`alone`). -/
structure RestoresJust {α : Type} (plain : α → Prop) (encode : α → Except ProtocolFault Bytes)
    (gives : Bytes → α → Prop) : Prop where
  restores : ∀ a frame, encode a = .ok frame → (gives frame a ↔ plain a)
  alone : ∀ a b frame, encode a = .ok frame → encode b = .ok frame → plain a → plain b → a = b

/-- Where a frame gives one value at most, it is enough for `RestoresJust` to say which values come
back. -/
theorem RestoresJust.of_restores {α : Type} {plain : α → Prop}
    {encode : α → Except ProtocolFault Bytes} {gives : Bytes → α → Prop}
    (hone : ∀ frame a b, gives frame a → gives frame b → a = b)
    (h : ∀ a frame, encode a = .ok frame → (gives frame a ↔ plain a)) :
    RestoresJust plain encode gives where
  restores := h
  alone a b frame ha hb hplain hplain' :=
    hone frame a b ((h a frame ha).2 hplain) ((h b frame hb).2 hplain')

/-- Requests, notifications and registrations that have frames come back as they were just if they
hold no NUL, and no two of those have the same frame (`RestoresJust`). Others come back with their
texts cut at the first NUL, unless a registration has lost a word by it: then it does not come
back. -/
theorem decode_of_encode (ε : Type) :
    (RestoresJust (·.hasNul = false) Request.encode (fun frame r => Request.decode frame = .ok r) ∧
      ∀ (r : Request) (frame : Bytes), r.encode = .ok frame →
        Request.decode frame = .ok r.beforeNul) ∧
    (RestoresJust (·.hasNul = false) Notification.encode (fun frame n =>
        (Notification.read ([.bytes frame] : Source ε)).result = .ok (some n)) ∧
      ∀ (n : Notification) (frame : Bytes), n.encode = .ok frame →
        (Notification.read ([.bytes frame] : Source ε)).result = .ok (some n.beforeNul)) ∧
    (RestoresJust (·.hasNul = false) Registration.encode
        (fun frame g => Registration.decode frame = .ok g) ∧
      ∀ (g : Registration) (frame : Bytes), g.encode = .ok frame →
        if g.hasNulPath ∨ g.beforeNul.clientId = "" then
          ∃ text, Registration.decode frame = .error (.malformedRegistration text)
        else Registration.decode frame = .ok g.beforeNul) := by
  refine ⟨⟨.of_restores ?_ fun r frame h => ?_, fun _ _ => Request.decode_eq_of_encode⟩,
    ⟨.of_restores ?_ fun n frame h => ?_, fun _ _ => Notification.result_read_of_encode⟩,
    .of_restores ?_ fun _ _ => Registration.decode_eq_self_iff,
    fun _ _ => Registration.decode_eq_of_encode⟩
  · exact fun frame a b ha hb => Except.ok.inj (ha.symm.trans hb)
  · rw [Request.decode_eq_of_encode h, ← Request.beforeNul_eq_self_iff, Except.ok.injEq]
  · exact fun frame a b ha hb => Option.some.inj (Except.ok.inj (ha.symm.trans hb))
  · rw [Notification.result_read_of_encode h, ← Notification.beforeNul_eq_self_iff,
      Except.ok.injEq, Option.some.injEq]
  · exact fun frame a b ha hb => Except.ok.inj (ha.symm.trans hb)

/-- A subscription, a notification and a registration that come back (`decode_of_encode`), and a
notification that loses what stands behind a NUL. -/
theorem decode_of_encode_oneOfEach :
    (∃ frame, Request.encode (.subscribe "k") = .ok frame ∧
      Request.decode frame = .ok (.subscribe "k")) ∧
    (∃ frame, Notification.encode ⟨"k", "a\x00b"⟩ = .ok frame ∧
      (Notification.read ([.bytes frame] : Source Unit)).result = .ok (some ⟨"k", "a"⟩)) ∧
    ∃ frame, Registration.encode ⟨.ofString "q", .ofString "r", .ofString "n", "c"⟩ = .ok frame ∧
      Registration.decode frame = .ok ⟨.ofString "q", .ofString "r", .ofString "n", "c"⟩ := by
  obtain ⟨⟨hrequest, -⟩, ⟨-, hnotification⟩, hregistration, -⟩ := decode_of_encode Unit
  have hcut : Notification.beforeNul ⟨"k", "a\x00b"⟩ = ⟨"k", "a"⟩ := by decide +kernel
  refine ⟨⟨_, rfl, (hrequest.restores _ _ rfl).2 rfl⟩, ⟨_, rfl, hcut ▸ hnotification _ _ rfl⟩, ?_⟩
  exact ⟨_, rfl, (hregistration.restores _ _ rfl).2 rfl⟩

/-- A key that ends in a NUL is accepted by `Request.encode`, but it has the frame of the key
without the NUL, and that is what comes back. -/
theorem decode_of_encode_fails :
    ∃ frame, Request.encode (.subscribe "a\x00") = .ok frame ∧
      Request.encode (.subscribe "a") = .ok frame ∧
      Request.decode frame = .ok (.subscribe "a") ∧
      ¬∀ (r : Request) (frame : Bytes), r.encode = .ok frame → Request.decode frame = .ok r := by
  have hback : Request.decode (0x33 :: 0x61 :: List.replicate 40 0) = .ok (.subscribe "a") := by
    decide +kernel
  refine ⟨0x33 :: 0x61 :: List.replicate 40 0, by decide +kernel, by decide +kernel, hback, ?_⟩
  intro hall
  have hself := hall (.subscribe "a\x00") (0x33 :: 0x61 :: List.replicate 40 0) (by decide +kernel)
  exact absurd (Except.ok.inj (hself.symm.trans hback)) (by decide)

end KeyWatch
