import KeyWatch.Proofs.Pipe.Steady
import KeyWatch.Wire.Notification
import KeyWatch.Wire.Registration
import KeyWatch.Wire.Request
import KeyWatch.Wire.Response

/-!
# What is written is read back

Values of a kind that are encoded and sent one behind another are read back one by one, however the
stream cuts the bytes and interrupts the reads, and then the reader meets the end (`RoundTrips`). It
is enough that a reader takes off a steady stream just the frame of one value (`ReadsBack`), and
finds the end of an empty one (`ReadsEnd`); the rest is an induction on the values
(`roundTrips_of_readsBack`). A request is the only frame that is read in two steps, since its code
tells how long it is.

The limits are those of the writers (`IsFieldText`, `Registration.Fits`) and one more: no text holds
a NUL, where a reader would end it.
-/

namespace KeyWatch

variable {ε α : Type}

/-! ## Streams of values -/

/-- A value that has a frame, which a reader takes off every steady stream that begins with it, and
nothing more (`Source.Steady`). -/
def ReadsBack (encode : α → Except ProtocolFault Bytes) (read : Source ε → Received ε α) (a : α) :
    Prop :=
  ∃ frame, encode a = .ok frame ∧
    ∀ (source : Source ε) (rest : Bytes), source.Steady → source.content = frame ++ rest →
      (read source).result = .ok (some a) ∧ Source.content (read source).rest = rest ∧
        Source.Steady (read source).rest

/-- A reader that finds the end of a stream without bytes (`Source.content`). -/
def ReadsEnd (read : Source ε → Received ε α) : Prop :=
  ∀ source : Source ε, source.Steady → source.content = [] →
    (read source).result = .ok none ∧ (read source).rest = []

/-- Values within the limits are encoded, and read back in order from every steady stream of their
frames by `readSeries`; then the reader finds the end. -/
def RoundTrips (Fits : α → Prop) (encode : α → Except ProtocolFault Bytes)
    (read : Source ε → Received ε α) : Prop :=
  ∀ values : List α, (∀ a ∈ values, Fits a) →
    ∃ frames : List Bytes, values.map encode = frames.map .ok ∧
      ∀ source : Source ε, source.Steady → source.content = frames.flatten →
        ∀ limit, values.length < limit →
          (readSeries read limit source).map Received.result =
            values.map (fun a => .ok (some a)) ++ [.ok none]

/-- Where single values are read back (`ReadsBack`), rows of them are; by induction on the row. -/
theorem roundTrips_of_readsBack {Fits : α → Prop} {encode : α → Except ProtocolFault Bytes}
    {read : Source ε → Received ε α} (hback : ∀ a, Fits a → ReadsBack encode read a)
    (hend : ReadsEnd read) : RoundTrips Fits encode read := by
  intro values hvalues
  induction values with
  | nil =>
    refine ⟨[], rfl, ?_⟩
    intro source hsteady hcontent limit hlimit
    obtain ⟨left, rfl⟩ := Nat.exists_eq_add_of_lt hlimit
    obtain ⟨hresult, hrest⟩ := hend source hsteady hcontent
    simp only [List.length_nil, Nat.zero_add, readSeries, Received.stops, hresult, hrest,
      List.isEmpty_nil, Bool.and_self, if_true, List.map_cons, List.map_nil, List.nil_append]
  | cons a values ih =>
    obtain ⟨frame, hframe, hread⟩ := hback a (hvalues a List.mem_cons_self)
    obtain ⟨frames, hframes, hreads⟩ := ih fun b hb => hvalues b (List.mem_cons_of_mem a hb)
    refine ⟨frame :: frames, ?_, ?_⟩
    · rw [List.map_cons, List.map_cons, hframe, hframes]
    · intro source hsteady hcontent limit hlimit
      obtain ⟨left, rfl⟩ : ∃ left, limit = left + 1 := ⟨limit - 1, by omega⟩
      obtain ⟨hresult, hleft, hrest⟩ := hread source frames.flatten hsteady hcontent
      have hmore := hreads (read source).rest hrest hleft left (Nat.lt_of_succ_lt_succ hlimit)
      rw [readSeries]
      simp only [Received.stops, hresult, Bool.false_and, Bool.false_eq_true, if_false,
        List.map_cons, hmore, List.cons_append]

/-! ## Frames of one size -/

/-- What is left short of a frame is used up by `fill`. -/
theorem rest_fill_of_short {size : Nat} {got : Bytes} {source : Source ε} (hs : source.Steady)
    (h : got.length + source.content.length < size) : (fill size got source).rest = [] := by
  fun_induction fill size got source with
  | case1 => rfl
  | case2 => exact absurd (hs .ending List.mem_cons_self) id
  | case3 got fault rest _ ih => exact ih hs.tail h
  | case4 got fault rest hkind => exact absurd (hs (.fail fault) List.mem_cons_self) hkind
  | case5 got e rest filled ih => exact ih hs.tail h
  | case6 got content rest missing _ ih =>
    refine ih hs.tail ?_
    rw [Source.content, List.flatMap_cons, List.length_append] at h
    rw [List.length_append, Nat.add_assoc]
    exact h
  | case7 got content rest missing hlt | case8 got content rest missing hlt =>
    rw [Source.content, List.flatMap_cons, List.length_append, Piece.content] at h
    omega

/-- A frame of a fixed size is read back by `readFrame` from where it stands. -/
theorem readsBack_of_frame {encode : α → Except ProtocolFault Bytes} (what : String) {size : Nat}
    (hsize : 0 < size) {f : Bytes → Except ProtocolFault α} {a : α} {frame : Bytes}
    (hframe : encode a = .ok frame) (hlength : frame.length = size) (hdecode : f frame = .ok a) :
    ReadsBack encode (fun s : Source ε => (readFrame what size s).decode f) a := by
  refine ⟨frame, hframe, ?_⟩
  intro source rest hsteady hcontent
  obtain ⟨hresult, hleft, hrest, -⟩ := readFrame_of_frame what hsize hsteady hlength hcontent
  refine ⟨?_, hleft, hrest⟩
  simp only [Received.decode, hresult, hdecode]
  rfl

/-- At a stream without bytes `readFrame` finds the end. -/
theorem readFrame_of_end (what : String) {size : Nat} (hsize : 0 < size) {source : Source ε}
    (hsteady : source.Steady) (hcontent : source.content = []) :
    (readFrame what size source).result = .ok none ∧ (readFrame what size source).rest = [] := by
  have hstart : ([] : Bytes).length < size := hsize
  have hshort : ([] : Bytes).length + source.content.length < size := by
    rw [hcontent]
    exact hsize
  obtain ⟨houtcome, -, -⟩ := fill_of_steady hsteady hstart
  rw [if_pos hshort, hcontent] at houtcome
  refine ⟨?_, rest_fill_of_short hsteady hshort⟩
  simp only [readFrame, houtcome]
  rfl

/-- The reader of frames of a fixed size finds the end of a stream without bytes (`ReadsEnd`). -/
theorem readsEnd_of_frame (what : String) {size : Nat} (hsize : 0 < size)
    (f : Bytes → Except ProtocolFault α) :
    ReadsEnd fun s : Source ε => (readFrame what size s).decode f := by
  intro source hsteady hcontent
  obtain ⟨hresult, hrest⟩ := readFrame_of_end what hsize hsteady hcontent
  refine ⟨?_, hrest⟩
  simp only [Received.decode, hresult]

/-! ## The four kinds of frames -/

/-- Whether a text can be a key or value on the wire: it fits into a field and holds no NUL
(`maxTextSize`). -/
def IsFieldText (text : String) : Prop := text.utf8ByteSize ≤ maxTextSize ∧ hasNul text = false

/-- A text that can be a key or value on the wire has a field (`encodeField`). -/
theorem IsFieldText.exists_encodeField {text : String} (h : IsFieldText text) (what : String) :
    ∃ field, encodeField what textWidth text = .ok field :=
  ⟨_, encodeField_eq_ok_iff.2 ⟨Nat.lt_succ_of_le h.1, rfl⟩⟩

namespace Request

/-- Whether a request can be written and read back: its key is a field's text (`IsFieldText`). -/
def Fits : Request → Prop
  | connect | disconnect => True
  | subscribe key | unsubscribe key => IsFieldText key

section
variable {source : Source ε} (hs : source.Steady) {b : UInt8} {rest : Bytes}
include hs

/-- A request whose code says all (`payloadWidth`) is read off the code alone, from a steady
stream. -/
theorem read_of_code (hwidth : payloadWidth b = 0) (hcontent : source.content = b :: rest) :
    (read source).result = ((decode [b]).mapError .protocol).map some ∧
      Source.content (read source).rest = rest ∧ Source.Steady (read source).rest := by
  replace hcontent : source.content = [b] ++ rest := hcontent
  obtain ⟨hresult, hleft, hrest, -⟩ := readFrame_of_frame "request" Nat.one_pos hs rfl hcontent
  simp only [read, hresult, if_pos hwidth, Received.decode]
  exact ⟨trivial, hleft, hrest⟩

/-- A request whose code calls for a key (`payloadWidth`) is read off the code and the key, from a
steady stream. -/
theorem read_of_key {key : Bytes} (hwidth : payloadWidth b = textWidth)
    (hlength : key.length = textWidth) (hcontent : source.content = b :: (key ++ rest)) :
    (read source).result = ((decode (b :: key)).mapError .protocol).map some ∧
      Source.content (read source).rest = rest ∧ Source.Steady (read source).rest := by
  replace hcontent : source.content = [b] ++ (key ++ rest) := hcontent
  obtain ⟨hcode, hbehind, hsteady, -⟩ := readFrame_of_frame "request" Nat.one_pos hs rfl hcontent
  obtain ⟨hresult, hleft, hrest, -⟩ :=
    readFrame_of_frame "request key" (by decide) hsteady hlength hbehind
  have hne : ¬payloadWidth b = 0 := by
    rw [hwidth]
    decide
  simp only [read, hcode, if_neg hne, readPayload, hresult, Received.decode]
  exact ⟨trivial, hleft, hrest⟩

end

/-- A request whose code says all is read back (`ReadsBack`). -/
theorem readsBack_of_code {r : Request} {b : UInt8} (hencode : r.encode = .ok [b])
    (hwidth : payloadWidth b = 0) (hdecode : decode [b] = .ok r) :
    ReadsBack encode (read : Source ε → _) r := by
  refine ⟨[b], hencode, ?_⟩
  intro source rest hsteady hcontent
  obtain ⟨hresult, hleft, hrest⟩ := read_of_code hsteady hwidth hcontent
  rw [hdecode] at hresult
  exact ⟨hresult, hleft, hrest⟩

/-- A request whose code calls for a key is read back (`ReadsBack`). -/
theorem readsBack_of_key {r : Request} {b : UInt8} {key : Bytes}
    (hencode : r.encode = .ok (b :: key)) (hwidth : payloadWidth b = textWidth)
    (hlength : key.length = textWidth) (hdecode : decode (b :: key) = .ok r) :
    ReadsBack encode (read : Source ε → _) r := by
  refine ⟨b :: key, hencode, ?_⟩
  intro source rest hsteady hcontent
  obtain ⟨hresult, hleft, hrest⟩ := read_of_key hsteady hwidth hlength hcontent
  rw [hdecode] at hresult
  exact ⟨hresult, hleft, hrest⟩

/-- A key without NUL that is put into a field comes back by `decodeKey`. -/
theorem decodeKey_encodeField {key : String} {field : Bytes}
    (h : encodeField "key" textWidth key = .ok field) (hnul : hasNul key = false) :
    decodeKey field = .ok key := by
  have hlength := length_encodeField h
  rw [decodeKey, if_neg (Nat.not_lt.2 (Nat.le_of_eq hlength.symm)),
    List.take_of_length_le (Nat.le_of_eq hlength)]
  exact decodeField_encodeField h hnul

/-- A request that `Fits` is read back. -/
theorem readsBack (r : Request) (h : r.Fits) : ReadsBack encode (read : Source ε → _) r := by
  cases r with
  | connect => exact readsBack_of_code rfl rfl rfl
  | disconnect => exact readsBack_of_code rfl rfl rfl
  | subscribe key =>
    obtain ⟨field, hfield⟩ := h.exists_encodeField "key"
    have hencode : (subscribe key).encode = .ok (OpCode.subscribe.toByte :: field) :=
      congrArg (Except.map _) hfield
    have hdecode : decode (OpCode.subscribe.toByte :: field) = .ok (subscribe key) :=
      congrArg (Except.map subscribe) (decodeKey_encodeField hfield h.2)
    exact readsBack_of_key hencode rfl (length_encodeField hfield) hdecode
  | unsubscribe key =>
    obtain ⟨field, hfield⟩ := h.exists_encodeField "key"
    have hencode : (unsubscribe key).encode = .ok (OpCode.unsubscribe.toByte :: field) :=
      congrArg (Except.map _) hfield
    have hdecode : decode (OpCode.unsubscribe.toByte :: field) = .ok (unsubscribe key) :=
      congrArg (Except.map unsubscribe) (decodeKey_encodeField hfield h.2)
    exact readsBack_of_key hencode rfl (length_encodeField hfield) hdecode

/-- The reader of requests finds the end of a stream without bytes (`ReadsEnd`). -/
theorem readsEnd : ReadsEnd (read : Source ε → _) := by
  intro source hsteady hcontent
  obtain ⟨hresult, hrest⟩ := readFrame_of_end "request" Nat.one_pos hsteady hcontent
  simp only [read, hresult, Received.decode]
  exact ⟨trivial, hrest⟩

end Request

namespace Response

/-- Every response is read back (`ReadsBack`): it has no texts. -/
theorem readsBack (r : Response) :
    ReadsBack (fun r => .ok (encode r)) (read : Source ε → _) r := by
  refine readsBack_of_frame "response" (by decide) rfl rfl ?_
  simpa using decode_encode r []

end Response

namespace Notification

/-- Whether a notification can be written and read back: key and value are fields' texts
(`IsFieldText`). -/
def Fits (n : Notification) : Prop := IsFieldText n.key ∧ IsFieldText n.value

/-- A notification that `Fits` has a frame. -/
theorem Fits.exists_encode {n : Notification} (h : n.Fits) : ∃ frame, n.encode = .ok frame := by
  obtain ⟨key, hkey⟩ := h.1.exists_encodeField "key"
  obtain ⟨value, hvalue⟩ := h.2.exists_encodeField "value"
  refine ⟨key ++ value, ?_⟩
  rw [encode, hkey, hvalue]
  rfl

/-- A notification that `Fits` is read back. -/
theorem readsBack (n : Notification) (h : n.Fits) : ReadsBack encode (read : Source ε → _) n := by
  obtain ⟨frame, hframe⟩ := h.exists_encode
  exact readsBack_of_frame "notification" (by decide) hframe (length_encode hframe)
    (decode_encode hframe h.1.2 h.2.2)

end Notification

namespace Registration

/-- Whether a text can be a word of a registration, of at most `limit` bytes: not empty, without NUL
and without blanks (`Text.hasBlank`). -/
def IsWord (limit : Nat) (text : String) : Prop :=
  0 < text.utf8ByteSize ∧ text.utf8ByteSize ≤ limit ∧ hasNul text = false ∧
    Text.hasBlank text = false

/-- Whether a registration can be written and read back: its paths are texts and words, and so is
its id (`IsWord`). -/
def Fits (r : Registration) : Prop :=
  ∃ request response notification, IsWord maxPathSize request ∧ IsWord maxPathSize response ∧
    IsWord maxPathSize notification ∧ IsWord maxTextSize r.clientId ∧
    r = ⟨.ofString request, .ofString response, .ofString notification, r.clientId⟩

/-- A text that `IsWord` is not empty. -/
theorem IsWord.ne_empty {limit : Nat} {text : String} (h : IsWord limit text) : text ≠ "" := by
  rintro rfl
  exact Nat.lt_irrefl 0 h.1

/-- A word within the limit of texts is a client's id by `isClientId`. -/
theorem IsWord.isClientId {id : String} (h : IsWord maxTextSize id) : isClientId id = true := by
  obtain ⟨hpos, hsize, -, hblank⟩ := h
  simp [Registration.isClientId, Nat.ne_of_gt hpos, hsize, hblank]

/-- A word within the limit of paths is accepted as a path by `pathWord`. -/
theorem IsWord.pathWord {what text : String} (h : IsWord maxPathSize text) :
    pathWord what (.ofString text) = .ok text := by
  obtain ⟨hpos, hsize, -, hblank⟩ := h
  have hdecode : Utf8.decode (Path.ofString text).bytes = .ok text := Utf8.decode_encode text
  have hlimits : ¬(text.utf8ByteSize = 0 ∨ maxPathSize < text.utf8ByteSize) := by omega
  rw [Registration.pathWord, hdecode]
  simp only [if_neg hlimits, hblank, Bool.false_eq_true, if_false]

section
variable {request response notification id : String} (hrequest : IsWord maxPathSize request)
  (hresponse : IsWord maxPathSize response) (hnotification : IsWord maxPathSize notification)
  (hid : IsWord maxTextSize id)
include hrequest hresponse hnotification hid

/-- The `line` of a registration's words is shorter than its frame. -/
theorem size_line : (line request response notification id).utf8ByteSize < frameSize := by
  obtain ⟨-, hrequest, -⟩ := hrequest
  obtain ⟨-, hresponse, -⟩ := hresponse
  obtain ⟨-, hnotification, -⟩ := hnotification
  obtain ⟨-, hid, -⟩ := hid
  have htag : tag.utf8ByteSize = 1 := by decide
  have hspace : " ".utf8ByteSize = 1 := by decide
  simp only [line, String.utf8ByteSize_append, htag, hspace, maxPathSize, maxTextSize, frameSize]
    at *
  omega

/-- The `line` of a registration's words holds no NUL. -/
theorem hasNul_line : hasNul (line request response notification id) = false := by
  have htag : hasNul tag = false := by decide
  have hspace : hasNul " " = false := by decide
  simp only [line, hasNul_append, htag, hspace, hrequest.2.2.1, hresponse.2.2.1,
    hnotification.2.2.1, hid.2.2.1, Bool.or_self]

/-- The `line` of a registration's words falls into the tag and these words. -/
theorem words_line :
    Text.words (line request response notification id) =
      [tag, request, response, notification, id] := by
  have htag : tag ≠ "" ∧ Text.hasBlank tag = false := by decide
  have hline : line request response notification id =
      tag ++ " " ++ (request ++ " " ++ (response ++ " " ++ (notification ++ " " ++ id))) := by
    simp only [line, String.append_assoc]
  rw [hline, Text.words_append htag.1 htag.2,
    Text.words_append hrequest.ne_empty hrequest.2.2.2,
    Text.words_append hresponse.ne_empty hresponse.2.2.2,
    Text.words_append hnotification.ne_empty hnotification.2.2.2,
    Text.words_of_not_hasBlank hid.ne_empty hid.2.2.2]

/-- The `line` of a registration's words is read as the registration by `ofLine`. -/
theorem ofLine_line :
    ofLine (line request response notification id) =
      .ok ⟨.ofString request, .ofString response, .ofString notification, id⟩ := by
  rw [ofLine, words_line hrequest hresponse hnotification hid]
  simp only [if_true, if_neg (Nat.not_lt.2 hid.2.1)]

end

/-- A registration that `Fits` has a frame, from which it is decoded. -/
theorem exists_encode {r : Registration} (h : r.Fits) :
    ∃ frame, r.encode = .ok frame ∧ frame.length = frameSize ∧ decode frame = .ok r := by
  obtain ⟨request, response, notification, hrequest, hresponse, hnotification, hid, hr⟩ := h
  obtain ⟨field, hfield⟩ : ∃ field, encodeField "registration" frameSize
      (line request response notification r.clientId) = .ok field :=
    ⟨_, encodeField_eq_ok_iff.2 ⟨size_line hrequest hresponse hnotification hid, rfl⟩⟩
  refine ⟨field, ?_, length_encodeField hfield, ?_⟩
  · rw [encode, if_pos hid.isClientId, hr, hrequest.pathWord, hresponse.pathWord,
      hnotification.pathWord]
    simp only [bind, Except.bind]
    exact hfield
  · rw [decode, decodeField_encodeField hfield (hasNul_line hrequest hresponse hnotification hid)]
    simp only [bind, Except.bind]
    rw [ofLine_line hrequest hresponse hnotification hid, ← hr]

/-- A registration that `Fits` is read back. -/
theorem readsBack (r : Registration) (h : r.Fits) : ReadsBack encode (read : Source ε → _) r := by
  obtain ⟨frame, hframe, hlength, hdecode⟩ := exists_encode h
  exact readsBack_of_frame "registration" (by decide) hframe hlength hdecode

end Registration

/-- Requests, responses, notifications and registrations within their limits are all encoded. A
reader whose stream brings their bytes, cut anywhere and with any number of interrupted reads, reads
just them, in order, and then finds the end of the stream (`RoundTrips`). -/
theorem roundTrips (ε : Type) :
    RoundTrips Request.Fits Request.encode (Request.read : Source ε → _) ∧
      RoundTrips (fun _ => True) (fun r => .ok (Response.encode r))
        (Response.read : Source ε → _) ∧
      RoundTrips Notification.Fits Notification.encode (Notification.read : Source ε → _) ∧
      RoundTrips Registration.Fits Registration.encode (Registration.read : Source ε → _) := by
  refine ⟨?_, ?_, ?_, ?_⟩
  · exact roundTrips_of_readsBack Request.readsBack Request.readsEnd
  · exact roundTrips_of_readsBack (fun r _ => r.readsBack) (readsEnd_of_frame _ (by decide) _)
  · exact roundTrips_of_readsBack Notification.readsBack (readsEnd_of_frame _ (by decide) _)
  · exact roundTrips_of_readsBack Registration.readsBack (readsEnd_of_frame _ (by decide) _)

/-- Three requests are read back (`roundTrips`), the second cut after its code and in its padding,
by reads that are interrupted. -/
theorem roundTrips_threeRequests :
    (readSeries Request.read 4 ([.bytes [0x31, 0x33], .fail ⟨.interrupted, "boom"⟩,
      .bytes (0x6B :: List.replicate 30 0), .bytes (List.replicate 10 0 ++ [0x32]),
      .fail ⟨.interrupted, "boom"⟩] : Source Unit)).map Received.result =
        [.ok (some .connect), .ok (some (.subscribe "k")), .ok (some .disconnect), .ok none] := by
  have hfits : ∀ r ∈ [Request.connect, .subscribe "k", .disconnect], r.Fits := by
    have hkey : IsFieldText "k" := by
      unfold IsFieldText
      decide
    simp [Request.Fits, hkey]
  obtain ⟨frames, hframes, hread⟩ := (roundTrips Unit).1 _ hfits
  obtain rfl : frames = [[0x31], 0x33 :: 0x6B :: List.replicate 40 0, [0x32]] :=
    (List.map_inj_right fun _ _ h => Except.ok.inj h).1 (hframes.symm.trans rfl)
  refine hread _ ?_ rfl 4 (by decide)
  simp [Source.Steady, Piece.Steady]

end KeyWatch
