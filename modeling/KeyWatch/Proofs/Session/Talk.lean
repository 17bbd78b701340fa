import KeyWatch.Proofs.Pipe.Steady
import KeyWatch.Session.Serve

/-!
# What a client says

The bytes that a client sends are a row of requests, however they arrive: a request is there as soon
as there are as many bytes as its operation code calls for (`Request.whole?`). What a reader meets
byte by byte is thus the client's talk (`Talk`): its requests with the events between them, and how
it stops. It stops where the stream ends or fails, or with the first bytes that are no request.

The server reads in frames, from pieces that need not end where frames do. It serves the talk all
the same, whatever the pieces are (`Server.serveAll_readAll`). The step is `Talk.ofAtoms_fill`: to
fill a frame and go on is to go on byte by byte.
-/

namespace KeyWatch

variable {ε χ : Type}

/-! ## Talks -/

/-- The request that some bytes make up by `Request.decode`, or what is wrong with them, once there
are as many as the operation code calls for. -/
def Request.whole? : Bytes → Option (Except ProtocolFault Request)
  | [] => none
  | b :: payload => if payload.length < payloadWidth b then none else some (decode (b :: payload))

/-- What a reader meets of a source, byte by byte (`Source.atoms`). -/
inductive Atom (ε : Type) where
  | byte (b : UInt8)
  | fail (fault : IoFault)
  | ending
  | event (e : ε)

/-- A piece of a source byte by byte, each an `Atom`. -/
def Piece.atoms : Piece ε → List (Atom ε)
  | .bytes content => content.map .byte
  | .fail fault => [.fail fault]
  | .ending => [.ending]
  | .event e => [.event e]

/-- A source byte by byte, its pieces one after another (`Piece.atoms`). -/
def Source.atoms (s : Source ε) : List (Atom ε) := s.flatMap Piece.atoms

/-- How a talk stops: the stream ends; a read fails, while something is read; or what was said is no
request (`Talk.stop`). -/
inductive Stop where
  | ended
  | failed (fault : IoFault) (reading : String)
  | malformed (fault : ProtocolFault)
  deriving DecidableEq, Repr

/-- What a client says: its requests with the events between them, and how it stops (`Stop`). -/
inductive Talk (ε : Type) where
  | stop (how : Stop)
  | event (e : ε) (rest : Talk ε)
  | request (r : Request) (rest : Talk ε)

/-- What is read when so much of a request is there, as errors name it: the request or its key
(`Stop.failed`). -/
def Request.reading (pending : Bytes) : String :=
  if pending.isEmpty then "request" else "request key"

namespace Talk

/-- The talk of a client of whose next request some bytes are there. A request is made up as soon as
`Request.whole?` has it; a read that is interrupted is tried again. -/
def ofAtoms (pending : Bytes) : List (Atom ε) → Talk ε
  | [] | .ending :: _ => .stop .ended
  | .fail fault :: rest =>
    if fault.kind = .interrupted then ofAtoms pending rest
    else .stop (.failed fault (Request.reading pending))
  | .event e :: rest => .event e (ofAtoms pending rest)
  | .byte b :: rest =>
    match Request.whole? (pending ++ [b]) with
    | none => ofAtoms (pending ++ [b]) rest
    | some (.ok r) => .request r (ofAtoms [] rest)
    | some (.error fault) => .stop (.malformed fault)

/-- The talk of a client, read from a source byte by byte (`Source.atoms`). -/
def ofSource (source : Source ε) : Talk ε := ofAtoms [] source.atoms

/-- A talk that begins with events, and then goes on as `Talk` says. -/
def after (events : List ε) (t : Talk ε) : Talk ε := events.foldr event t

/-- The talk that goes on when some bytes are there: with the request that they make up, if they do
(`Request.whole?`). -/
def resume (pending : Bytes) (rest : List (Atom ε)) : Talk ε :=
  match Request.whole? pending with
  | none => ofAtoms pending rest
  | some (.ok r) => .request r (ofAtoms [] rest)
  | some (.error fault) => .stop (.malformed fault)

/-- A byte is put to those that are there, and the talk is resumed with them (`resume`). -/
theorem ofAtoms_byte (pending : Bytes) (b : UInt8) (rest : List (Atom ε)) :
    ofAtoms pending (.byte b :: rest) = resume (pending ++ [b]) rest := rfl

/-- Bytes that come together come one after another, if nothing is made up before the last
(`Request.whole?`). -/
theorem ofAtoms_bytes {pending content : Bytes} (hne : content ≠ [])
    (h : ∀ l, l.length < content.length → Request.whole? (pending ++ l) = none)
    (rest : List (Atom ε)) :
    ofAtoms pending (content.map .byte ++ rest) = resume (pending ++ content) rest := by
  induction content generalizing pending with
  | nil => exact absurd rfl hne
  | cons b more ih =>
    rw [List.map_cons, List.cons_append, ofAtoms_byte]
    by_cases hmore : more = []
    · subst hmore
      rfl
    · have hlength : 0 < more.length := List.length_pos_iff.2 hmore
      have hfirst : Request.whole? (pending ++ [b]) = none :=
        h [b] (by simpa using hlength)
      rw [resume, hfirst]
      have hrest : ∀ l, l.length < more.length →
          Request.whole? (pending ++ [b] ++ l) = none := by
        intro l hl
        rw [List.append_assoc]
        exact h (b :: l) (Nat.succ_lt_succ hl)
      refine (ih hmore hrest).trans ?_
      rw [List.append_assoc]
      rfl

/-- The talk after the filling of a frame by `fill`: its events come first, and then what the
outcome says. -/
def afterFill (pending : Bytes) (filled : Filled ε) : Talk ε :=
  after filled.events <|
    match filled.outcome with
    | .full frame => resume (pending ++ frame) filled.rest.atoms
    | .ended | .cut _ => .stop .ended
    | .failed fault => .stop (.failed fault (Request.reading pending))

/-- A frame that is not filled at the end of the stream stops the talk (`afterFill`). -/
theorem afterFill_atEnd (pending got : Bytes) (rest : Source ε) :
    afterFill pending ⟨.atEnd got, [], rest⟩ = .stop .ended := by
  unfold afterFill Fill.atEnd
  split <;> rfl

/-- The bytes of the first piece of a source come first byte by byte (`Source.atoms`). -/
theorem atoms_bytes (content : Bytes) (rest : Source ε) :
    Source.atoms (.bytes content :: rest) = content.map .byte ++ Source.atoms rest := rfl

/-- To `fill` a frame and to go on is to go on byte by byte, if nothing is made up before the frame
is full. Induction on the source as the filling goes through it. -/
theorem ofAtoms_fill {pending got : Bytes} {size : Nat} {source : Source ε}
    (hwhole : ∀ l, l.length < size → Request.whole? (pending ++ l) = none)
    (hreading : ∀ l, l.length < size → Request.reading (pending ++ l) = Request.reading pending)
    (hgot : got.length < size) :
    ofAtoms (pending ++ got) source.atoms = afterFill pending (fill size got source) := by
  have hbytes : ∀ got content : Bytes, content ≠ [] → got.length + content.length ≤ size →
      ∀ rest : List (Atom ε), ofAtoms (pending ++ got) (content.map .byte ++ rest) =
        resume (pending ++ (got ++ content)) rest := by
    intro got content hne hle rest
    rw [ofAtoms_bytes hne, List.append_assoc]
    intro l hl
    rw [List.append_assoc]
    refine hwhole (got ++ l) ?_
    rw [List.length_append]
    omega
  fun_induction fill size got source with
  | case1 got => exact (afterFill_atEnd pending got []).symm
  | case2 got rest => exact (afterFill_atEnd pending got rest).symm
  | case3 got fault rest hkind ih =>
    refine Eq.trans ?_ (ih hgot)
    exact if_pos hkind
  | case4 got fault rest hkind =>
    refine (if_neg hkind).trans ?_
    rw [hreading got hgot]
    rfl
  | case5 got e rest filled ih => exact congrArg (event e) (ih hgot)
  | case6 got content rest missing hlt ih =>
    have hmore : (got ++ content).length < size := by
      rw [List.length_append]
      omega
    refine Eq.trans ?_ (ih hmore)
    by_cases hne : content = []
    · subst hne
      rw [List.append_nil]
      rfl
    · refine (hbytes got content hne (by omega) (Source.atoms rest)).trans ?_
      rw [resume, hwhole (got ++ content) hmore]
  | case7 got content rest missing _ heq =>
    have hne : content ≠ [] := by
      rintro rfl
      simp at heq
      omega
    exact hbytes got content hne (by omega) (Source.atoms rest)
  | case8 got content rest missing hlt hne =>
    have htake : (content.take missing).length = missing :=
      List.length_take_of_le (Nat.not_lt.1 hlt)
    have hsome : content.take missing ≠ [] := by
      rw [← List.length_pos_iff, htake]
      omega
    have hsplit : Source.atoms (.bytes content :: rest) = (content.take missing).map .byte ++
        Source.atoms (.bytes (content.drop missing) :: rest) := by
      rw [atoms_bytes, atoms_bytes, ← List.append_assoc, ← List.map_append, List.take_append_drop]
    rw [hsplit]
    exact hbytes got (content.take missing) hsome (by omega) _

end Talk

/-! ## Reading a talk -/

/-- How a session ends where the talk stops: in good order if the stream ends or the client has
gone, and else with an error (`Server.endOf`). -/
def Stop.result : Stop → Except Error SessionEnd
  | ended => .ok .hangup
  | failed fault reading =>
    if fault.kind.isDisconnect then .ok .hangup else .error (.ofIo fault reading)
  | malformed fault => .error (.protocol fault)

namespace Server

/-- A session ends where its reading fails, in good order if the client has gone, as `Stop.result`
says. -/
theorem endOf_ofIo {fault : IoFault} (h : fault.kind ≠ .interrupted) (reading : String) :
    endOf (.ofIo fault reading) = some (Stop.failed fault reading).result := by
  rw [Error.ofIo, if_neg h, Stop.result]
  cases hgone : fault.kind.isDisconnect with
  | true =>
    have hinterrupted : (Error.io fault).isInterrupted = false := by
      simp [Error.isInterrupted, Error.area, Error.ioKind?, h]
    have hdisconnect : (Error.io fault).isDisconnect = true := hgone
    simp [endOf, hinterrupted, hdisconnect]
  | false => simp [endOf, Error.ofIo, h, hgone, Error.isInterrupted, Error.isDisconnect, Error.area,
      Error.ioKind?]

end Server

namespace Talk

variable {source : Source ε}

/-- What a read of a request gives is where the talk goes on: with a request, or with a stop, at
which a session ends (`Server.attend`). -/
def Continues (χ : Type) (t : Talk ε) (received : Received ε Request) : Prop :=
  (∃ r, received.result = .ok (some r) ∧
      t = after received.events (.request r (ofSource received.rest))) ∨
    ∃ stop, t = after received.events (.stop stop) ∧
      ∀ (s : Server ε χ) client line out,
        s.attend client line out received.result = (some stop.result, out, s)

/-- A read that meets events before is where the talk goes on that begins with these events
(`Talk.after`). -/
theorem Continues.after_events {t : Talk ε} {received : Received ε Request}
    (h : Continues χ t received) (events : List ε) :
    Continues χ (after events t) { received with events := events ++ received.events } := by
  rcases h with ⟨r, hresult, rfl⟩ | ⟨stop, rfl, hattend⟩
  · exact .inl ⟨r, hresult, List.foldr_append.symm⟩
  · exact .inr ⟨stop, List.foldr_append.symm, hattend⟩

/-- A request that has a payload has one as wide as a text (`Request.payloadWidth`). -/
theorem payloadWidth_eq {b : UInt8} (h : Request.payloadWidth b ≠ 0) :
    Request.payloadWidth b = textWidth := by
  unfold Request.payloadWidth at h ⊢
  split
  · rfl
  · rfl
  · next hsub hunsub =>
    split at h
    · exact absurd ‹_› hsub
    · exact absurd ‹_› hunsub
    · exact absurd rfl h

/-- To read the rest of a request whose code was read (`Request.readPayload`) is to hear how the
talk goes on behind the code. -/
theorem continues_readPayload {b : UInt8} (hb : Request.payloadWidth b ≠ 0) (source : Source ε) :
    Continues χ (ofAtoms [b] source.atoms) (Request.readPayload b source) := by
  have hwidth := payloadWidth_eq hb
  have htalk : ofAtoms ([b] ++ []) source.atoms = afterFill [b] (fill textWidth [] source) := by
    refine ofAtoms_fill (fun l hl => ?_) (fun l _ => rfl) (by decide)
    exact if_pos (hwidth ▸ hl)
  rw [List.append_nil] at htalk
  rw [htalk]
  unfold Request.readPayload readFrame afterFill
  have hlength : ∀ key, (fill textWidth [] source).outcome = .full key → key.length = textWidth :=
    fun _ => length_of_fill (by decide)
  have hkind : ∀ fault, (fill textWidth [] source).outcome = .failed fault →
      fault.kind ≠ .interrupted := fun _ => kind_of_fill
  generalize fill textWidth [] source = filled at hlength hkind ⊢
  obtain ⟨outcome, events, rest⟩ := filled
  cases outcome with
  | full key =>
    have hlong : ¬key.length < Request.payloadWidth b := by
      rw [hwidth, hlength key rfl]
      exact Nat.lt_irrefl _
    have hwhole : Request.whole? ([b] ++ key) = some (Request.decode (b :: key)) := if_neg hlong
    simp only [resume, hwhole, Received.decode]
    cases hdecode : Request.decode (b :: key) with
    | ok r => exact .inl ⟨r, rfl, rfl⟩
    | error fault => exact .inr ⟨.malformed fault, rfl, fun _ _ _ _ => rfl⟩
  | ended => exact .inr ⟨.ended, rfl, fun _ _ _ _ => rfl⟩
  | cut size => exact .inr ⟨.ended, rfl, fun _ _ _ _ => rfl⟩
  | failed fault =>
    refine .inr ⟨.failed fault "request key", rfl, fun s client line out => ?_⟩
    exact congrArg (·, out, s) (Server.endOf_ofIo (hkind fault rfl) "request key")

/-- To read a request by `Request.read` is to hear the next of a client's talk (`Talk.ofSource`). -/
theorem continues_read (source : Source ε) :
    Continues χ (ofSource source) (Request.read source) := by
  have htalk : ofAtoms ([] ++ []) source.atoms = afterFill [] (fill 1 [] source) := by
    refine ofAtoms_fill (fun l hl => ?_) (fun l hl => ?_) Nat.one_pos
    · rw [List.length_eq_zero_iff.1 (Nat.lt_one_iff.1 hl)]
      rfl
    · rw [List.length_eq_zero_iff.1 (Nat.lt_one_iff.1 hl)]
      rfl
  rw [ofSource, ← List.append_nil ([] : Bytes), htalk]
  unfold Request.read readFrame afterFill
  have hlength : ∀ frame, (fill 1 [] source).outcome = .full frame → frame.length = 1 :=
    fun _ => length_of_fill Nat.one_pos
  have hkind : ∀ fault, (fill 1 [] source).outcome = .failed fault → fault.kind ≠ .interrupted :=
    fun _ => kind_of_fill
  generalize fill 1 [] source = filled at hlength hkind ⊢
  obtain ⟨outcome, events, rest⟩ := filled
  cases outcome with
  | full frame =>
    obtain ⟨b, rfl⟩ := List.length_eq_one_iff.1 (hlength frame rfl)
    by_cases hb : Request.payloadWidth b = 0
    · have hwhole : Request.whole? [b] = some (Request.decode [b]) :=
        if_neg (by rw [hb]; exact Nat.not_lt_zero _)
      simp only [List.nil_append, resume, hwhole, hb, if_true, Received.decode]
      cases hdecode : Request.decode [b] with
      | ok r => exact .inl ⟨r, rfl, rfl⟩
      | error fault => exact .inr ⟨.malformed fault, rfl, fun _ _ _ _ => rfl⟩
    · have hwhole : Request.whole? [b] = none := if_pos (Nat.pos_of_ne_zero hb)
      simp only [List.nil_append, resume, hwhole, hb, if_false]
      exact (continues_readPayload hb rest).after_events events
  | ended => exact .inr ⟨.ended, rfl, fun _ _ _ _ => rfl⟩
  | cut size => exact .inr ⟨.ended, rfl, fun _ _ _ _ => rfl⟩
  | failed fault =>
    refine .inr ⟨.failed fault "request", rfl, fun s client line out => ?_⟩
    exact congrArg (·, out, s) (Server.endOf_ofIo (hkind fault rfl) "request")

/-- To read a request by `Request.read` uses a source up, so the `readAll` of it ends. -/
theorem weight_read_lt (h : source ≠ []) :
    Source.weight (Request.read source).rest < source.weight := by
  have hfirst : Source.weight (readFrame "request" 1 source).rest < source.weight :=
    weight_fill_lt Nat.one_pos h
  unfold Request.read
  generalize readFrame "request" 1 source = first at hfirst ⊢
  simp only
  split
  case h_2 => exact hfirst
  case h_1 b _ _ =>
    split
    case isTrue => exact hfirst
    case isFalse =>
      refine Nat.lt_of_le_of_lt ?_ hfirst
      have hpayload : Source.weight (readFrame "request key" textWidth first.rest).rest ≤
          Source.weight first.rest := weight_fill_le _ _ _
      unfold Request.readPayload
      generalize readFrame "request key" textWidth first.rest = payload at hpayload ⊢
      simp only
      split <;> exact hpayload

end Talk

/-! ## Serving a talk -/

namespace Server

variable {act : ε → Server ε χ → Server ε χ} {client : ClientHandle} {line : String}

/-- Serves a talk, up to the end of the session: events act, requests are answered by
`Server.answer`, and at its stop the session ends. -/
def serveTalk (act : ε → Server ε χ → Server ε χ) (client : ClientHandle) (line : String) :
    Talk ε → Sink → Server ε χ → Except Error SessionEnd × Sink × Server ε χ
  | .stop stop, out, s => (stop.result, out, s)
  | .event e rest, out, s => serveTalk act client line rest out (act e s)
  | .request r rest, out, s =>
    match s.answer client line out r with
    | (some result, out, s) => (result, out, s)
    | (none, out, s) => serveTalk act client line rest out s

/-- A talk that begins with events is served when they have acted (`Server.react`). -/
theorem serveTalk_after (events : List ε) (t : Talk ε) (out : Sink) (s : Server ε χ) :
    serveTalk act client line (t.after events) out s =
      serveTalk act client line t out (s.react act events) := by
  induction events generalizing s with
  | nil => rfl
  | cons e rest ih => exact ih (act e s)

/-- A session is served by `Server.serveAll` as the talk goes, in whatever pieces its bytes arrive;
by induction on the weight of the source. -/
theorem serveAll_readAll (source : Source ε) (out : Sink) (s : Server ε χ) :
    serveAll act client line (readAll Request.read source) out s =
      serveTalk act client line (.ofSource source) out s := by
  unfold readAll
  have hfuel : source.weight < source.weight + 1 := Nat.lt_succ_self _
  generalize source.weight + 1 = fuel at hfuel ⊢
  induction fuel generalizing source out s with
  | zero => exact absurd hfuel (Nat.not_lt_zero _)
  | succ fuel ih =>
    rw [readAll.go, serveAll]
    rcases Talk.continues_read (χ := χ) source with ⟨r, hresult, htalk⟩ | ⟨stop, htalk, hattend⟩
    · have hsome : source ≠ [] := by
        rintro rfl
        cases hresult
      have hless := Talk.weight_read_lt hsome
      rw [htalk, serveTalk_after, serveTalk, hresult, attend]
      simp only [List.isEmpty_eq_false_iff.2 hsome, Bool.false_eq_true, if_false]
      generalize (s.react act (Request.read source).events).answer client line out r = answered
      obtain ⟨ending, out', s'⟩ := answered
      cases ending with
      | some result => rfl
      | none => exact ih _ out' s' (Nat.lt_of_lt_of_le hless (Nat.le_of_lt_succ hfuel))
    · rw [htalk, serveTalk_after, serveTalk, hattend]

end Server

end KeyWatch
