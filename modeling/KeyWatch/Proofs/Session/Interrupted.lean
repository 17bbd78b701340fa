import KeyWatch.Proofs.Pipe.Interrupted
import KeyWatch.Proofs.Pipe.Merged
import KeyWatch.Proofs.Session.Answers

/-!
# Sessions that are interrupted

A session may be interrupted before any read of a request and before any write and any flush of a
response (`Session.Interrupted`). The interruptions of reads and of writes do not show: the session
ends the same, and the server is left the same. The interruption of a flush does: it ends the
session with an error, and the server is left as if the client had stopped right behind the request
that was being answered (`Server.handle_interrupted`).
-/

namespace KeyWatch

variable {ε χ : Type}

/-! ## What is heard -/

namespace Atom

/-- Whether what a reader meets is a read that is interrupted (`Atom.fail`). -/
def isInterruption : Atom ε → Bool
  | fail fault => fault.kind == .interrupted
  | byte _ | ending | event _ => false

/-- A piece of its own for what a reader meets, so that `Source.atoms` gives it back. -/
def piece : Atom ε → Piece ε
  | byte b => .bytes [b]
  | fail fault => .fail fault
  | ending => .ending
  | event e => .event e

end Atom

namespace Source

/-- The `atoms` of a source are those of its first piece and then those of the others. -/
theorem atoms_cons (p : Piece ε) (s : Source ε) : atoms (p :: s) = p.atoms ++ atoms s := rfl

/-- A source of which every `Atom` is a piece of its own is met one by one. -/
theorem atoms_map_piece (row : List (Atom ε)) : atoms (row.map Atom.piece) = row := by
  induction row with
  | nil => rfl
  | cons a rest ih =>
    rw [List.map_cons, atoms_cons, ih]
    cases a <;> rfl

/-- A piece that is attached to a source by `attach` is met first. -/
theorem atoms_attach (p : Piece ε) (s : Source ε) : atoms (attach p s) = p.atoms ++ atoms s := by
  unfold attach
  split
  case h_1 front content rest =>
    rw [atoms_cons, atoms_cons, ← List.append_assoc]
    exact congrArg (· ++ atoms rest) (List.map_append)
  case h_2 => rfl

/-- A source that is `merged` is the source byte by byte, without its interruptions. -/
theorem atoms_merged (s : Source ε) : atoms s.merged = (atoms s).filter (!·.isInterruption) := by
  induction s with
  | nil => rfl
  | cons p s ih =>
    rw [atoms_cons, List.filter_append, ← ih]
    cases hidle : p.isIdle with
    | true =>
      have hnone : p.atoms.filter (!·.isInterruption) = [] := by
        cases p with
        | bytes content =>
          obtain rfl := List.isEmpty_iff.1 hidle
          rfl
        | fail fault =>
          have hinterruption : (Atom.fail fault : Atom ε).isInterruption = true := hidle
          exact List.filter_cons_of_neg (by simp [hinterruption])
        | ending | event => cases hidle
      rw [merged_cons_of_idle hidle, hnone, List.nil_append]
    | false =>
      have hall : p.atoms.filter (!·.isInterruption) = p.atoms := by
        cases p with
        | bytes content =>
          refine List.filter_eq_self.2 fun a ha => ?_
          obtain ⟨b, -, rfl⟩ := List.mem_map.1 ha
          rfl
        | fail fault =>
          have hfailure : (Atom.fail fault : Atom ε).isInterruption = false := hidle
          exact List.filter_cons_of_pos (by simp [hfailure])
        | ending | event => rfl
      rw [merged_cons hidle, atoms_attach, hall]

end Source

namespace Talk

/-- The interruptions of reads are not part of what a client says (`Talk.ofAtoms`). -/
theorem ofAtoms_filter (pending : Bytes) (row : List (Atom ε)) :
    ofAtoms pending (row.filter (!·.isInterruption)) = ofAtoms pending row := by
  induction row generalizing pending with
  | nil => rfl
  | cons a rest ih =>
    cases a with
    | fail fault =>
      by_cases hkind : fault.kind = .interrupted
      · rw [List.filter_cons_of_neg (by simp [Atom.isInterruption, hkind]), ih]
        exact (if_pos hkind).symm
      · rw [List.filter_cons_of_pos (by simp [Atom.isInterruption, hkind])]
        exact (if_neg hkind).trans (if_neg hkind).symm
    | ending => rfl
    | event e => exact congrArg (event e) (ih pending)
    | byte b =>
      rw [List.filter_cons_of_pos rfl, ofAtoms_byte, ofAtoms_byte, resume, resume]
      simp only [ih]

/-- A client says the same through sources that are alike (`Source.Alike`). -/
theorem ofSource_of_alike {s t : Source ε} (h : s.Alike t) : ofSource s = ofSource t := by
  have hmerged : ∀ u : Source ε, ofSource u.merged = ofSource u := by
    intro u
    rw [ofSource, Source.atoms_merged, ofAtoms_filter]
    rfl
  rw [← hmerged s, ← hmerged t, h]

end Talk

/-! ## Answers -/

namespace Server

variable {act : ε → Server ε χ → Server ε χ} {client : ClientHandle} {line : String}

/-- The end of a session by `Server.finish` is the same for level sinks (`Sink.Level`). -/
theorem finish_of_level {out out' : Sink} (h : out.Level out') (s : Server ε χ)
    (client : ClientHandle) (line : String) :
    s.finish client line out' = s.finish client line out := by
  obtain ⟨hpending, hcursor⟩ := h
  simp only [finish, hangUp, emitResponse, Sink.remainder, Sink.line, hpending, hcursor]

/-- A request is answered by `answer` as without interruptions, or the flush of its answer is
interrupted and the session ends with an error. The server is the same either way. -/
theorem answer_interrupted {out out' : Sink} (h : out.Interrupted Response.frameSize out')
    (s : Server ε χ) (client : ClientHandle) (line : String) (r : Request) :
    ∃ ending ending' left left' after,
      s.answer client line out r = (ending, left, after) ∧
      s.answer client line out' r = (ending', left', after) ∧
      left.Level left' ∧ left'.flushes ⊆ out'.flushes ∧
      (ending' = ending ∧ left.Interrupted Response.frameSize left' ∨
        (∃ outcome ∈ out'.flushes, FlushInterrupted outcome) ∧
          ending' = some (.error (.interrupted "response"))) := by
  unfold answer
  obtain ⟨response, now⟩ := s.perform client r
  cases response with
  | none => exact ⟨_, _, _, _, _, rfl, rfl, h.level, List.Subset.refl _, .inl ⟨rfl, h⟩⟩
  | some response =>
    have hsize : response.encode.length ≤ Response.frameSize := Nat.le_refl _
    obtain ⟨hemitted, hlevel, hflushes, hends⟩ := h.send "response" hsize
    have hline : out'.line (.response line) = out.line (.response line) := by
      rw [Sink.line, h.level.2]
      rfl
    simp only [reply, Response.write, emitResponse, hline, hemitted]
    rcases hends with ⟨herror, hmore⟩ | ⟨hinterrupted, herror⟩
    · rw [herror]
      cases (out.send "response" response.encode).error <;>
        exact ⟨_, _, _, _, _, rfl, rfl, hlevel, hflushes, .inl ⟨rfl, hmore⟩⟩
    · rw [herror]
      cases (out.send "response" response.encode).error <;>
        exact ⟨_, _, _, _, _, rfl, rfl, hlevel, hflushes, .inr ⟨hinterrupted, rfl⟩⟩

/-! ## Sessions -/

/-- Sessions that leave the server the same, and sinks that are level (`Sink.Level`). -/
def LeavesSame (x y : Except Error SessionEnd × Sink × Server ε χ) : Prop :=
  x.2.1.Level y.2.1 ∧ y.2.2 = x.2.2

/-- What becomes of a session that is interrupted, with what is left of what its client says: what
becomes of it otherwise (`serveTalk`); or a flush is interrupted, the session ends with an error,
and the server is left as if the client had stopped before. -/
def Disturbed (act : ε → Server ε χ → Server ε χ) (client : ClientHandle) (line : String)
    (flushes : List (Option IoFault)) (pending : Bytes) (row : List (Atom ε)) (out : Sink)
    (s : Server ε χ) (done : Except Error SessionEnd × Sink × Server ε χ) : Prop :=
  let usual := serveTalk act client line (.ofAtoms pending row) out s
  done.1 = usual.1 ∧ LeavesSame usual done ∨
    (∃ outcome ∈ flushes, FlushInterrupted outcome) ∧ done.1 = .error (.interrupted "response") ∧
      ∃ heard, heard <+: row ∧
        LeavesSame (serveTalk act client line (.ofAtoms pending heard) out s) done

/-- What becomes of a session is what becomes of it behind what it meets first, so it is `Disturbed`
if it is so there. -/
theorem Disturbed.cons {flushes : List (Option IoFault)} {pending pending' : Bytes} {a : Atom ε}
    {row : List (Atom ε)} {out out' : Sink} {s s' : Server ε χ}
    {done : Except Error SessionEnd × Sink × Server ε χ}
    (hstep : ∀ rest, serveTalk act client line (.ofAtoms pending (a :: rest)) out s =
      serveTalk act client line (.ofAtoms pending' rest) out' s')
    (h : Disturbed act client line flushes pending' row out' s' done) :
    Disturbed act client line flushes pending (a :: row) out s done := by
  rcases h with ⟨hresult, hleaves⟩ | ⟨hinterrupted, hresult, heard, hheard, hleaves⟩
  · exact .inl ⟨by rw [hstep, hresult], by rw [hstep]; exact hleaves⟩
  · refine .inr ⟨hinterrupted, hresult, a :: heard, (List.prefix_cons_inj a).2 hheard, ?_⟩
    rw [hstep]
    exact hleaves

/-- A session whose client says no more is not disturbed (`Disturbed`), whatever its line does. -/
theorem Disturbed.of_stop {flushes : List (Option IoFault)} {pending : Bytes} {row : List (Atom ε)}
    {out out' : Sink} {s : Server ε χ} {how : Stop} (h : out.Interrupted Response.frameSize out')
    (hhow : Talk.ofAtoms pending row = .stop how) :
    Disturbed act client line flushes pending row out s
      (serveTalk act client line (.ofAtoms pending row) out' s) := by
  rw [Disturbed, hhow]
  exact .inl ⟨rfl, h.level, rfl⟩

/-- A request of a talk is answered by `answer`, and the talk goes on unless that ends the
session. -/
theorem serveTalk_request {r : Request} {rest : Talk ε} {out left : Sink} {s after : Server ε χ}
    {ending : Option (Except Error SessionEnd)}
    (h : s.answer client line out r = (ending, left, after)) :
    serveTalk act client line (.request r rest) out s =
      ending.elim (serveTalk act client line rest left after) (·, left, after) := by
  rw [serveTalk, h]
  cases ending <;> rfl

/-- What becomes of a session when a request is answered (`answer_interrupted`). A flush that is
interrupted ends the session, so what has been heard then is all up to the last byte of the
request. -/
theorem Disturbed.of_request {flushes : List (Option IoFault)} {pending : Bytes} {b : UInt8}
    {r : Request} {rest : List (Atom ε)} {out out' : Sink} {s : Server ε χ}
    (h : out.Interrupted Response.frameSize out') (hflushes : out'.flushes ⊆ flushes)
    (hrequest : ∀ more : List (Atom ε),
      Talk.ofAtoms pending (.byte b :: more) = .request r (.ofAtoms [] more))
    (hrest : ∀ {out out' : Sink} (s : Server ε χ), out.Interrupted Response.frameSize out' →
      out'.flushes ⊆ flushes → Disturbed act client line flushes [] rest out s
        (serveTalk act client line (.ofAtoms [] rest) out' s)) :
    Disturbed act client line flushes pending (.byte b :: rest) out s
      (serveTalk act client line (.ofAtoms pending (.byte b :: rest)) out' s) := by
  obtain ⟨ending, ending', left, left', after, hanswer, hanswer', hlevel, hless, hends⟩ :=
    answer_interrupted h s client line r
  have hfirst : ∀ more : List (Atom ε),
      serveTalk act client line (.ofAtoms pending (.byte b :: more)) out s =
        ending.elim (serveTalk act client line (.ofAtoms [] more) left after) (·, left, after) :=
    fun more => hrequest more ▸ serveTalk_request hanswer
  have hsecond : serveTalk act client line (.ofAtoms pending (.byte b :: rest)) out' s =
      ending'.elim (serveTalk act client line (.ofAtoms [] rest) left' after) (·, left', after) :=
    hrequest rest ▸ serveTalk_request hanswer'
  rcases hends with ⟨rfl, hmore⟩ | ⟨⟨outcome, hmem, hinterrupted⟩, rfl⟩
  · cases ending' with
    | some result =>
      rw [Disturbed, hfirst, hsecond]
      exact .inl ⟨rfl, hlevel, rfl⟩
    | none =>
      rw [hsecond]
      exact .cons hfirst (hrest after hmore (List.Subset.trans hless hflushes))
  · rw [hsecond]
    refine .inr ⟨⟨outcome, hflushes hmem, hinterrupted⟩, rfl, [.byte b], ?_, ?_⟩
    · exact List.prefix_append [.byte b] rest
    · rw [hfirst]
      cases ending <;> exact ⟨hlevel, rfl⟩

/-- What becomes of a session on an interrupted sink is `Disturbed`; by induction on what is met,
with `Disturbed.of_request` where a request is made up. -/
theorem serveTalk_interrupted {flushes : List (Option IoFault)} (pending : Bytes)
    (row : List (Atom ε)) {out out' : Sink} (s : Server ε χ)
    (h : out.Interrupted Response.frameSize out') (hflushes : out'.flushes ⊆ flushes) :
    Disturbed act client line flushes pending row out s
      (serveTalk act client line (.ofAtoms pending row) out' s) := by
  induction row generalizing pending out out' s with
  | nil => exact .of_stop h rfl
  | cons a rest ih =>
    cases a with
    | ending => exact .of_stop h rfl
    | event e => exact .cons (fun _ => rfl) (ih pending (act e s) h hflushes)
    | fail fault =>
      by_cases hkind : fault.kind = .interrupted
      · have hskip : ∀ more : List (Atom ε),
            Talk.ofAtoms pending (.fail fault :: more) = .ofAtoms pending more :=
          fun _ => if_pos hkind
        rw [hskip rest]
        exact .cons (fun more => by rw [hskip more]) (ih pending s h hflushes)
      · exact .of_stop h (if_neg hkind)
    | byte b =>
      have hbyte : ∀ more : List (Atom ε),
          Talk.ofAtoms pending (.byte b :: more) = .resume (pending ++ [b]) more := fun _ => rfl
      unfold Talk.resume at hbyte
      cases hwhole : Request.whole? (pending ++ [b]) with
      | none =>
        simp only [hwhole] at hbyte
        rw [hbyte rest]
        exact .cons (fun more => by rw [hbyte more]) (ih (pending ++ [b]) s h hflushes)
      | some decoded =>
        simp only [hwhole] at hbyte
        cases decoded with
        | error fault => exact .of_stop h (hbyte rest)
        | ok r => exact .of_request h hflushes hbyte (ih [])

end Server

/-- A session with interruptions of its reads, of its writes and of its flushes, and with nothing
else changed but how the bytes of its requests are cut (`Source.Alike`, `Sink.Interrupted`). -/
structure Session.Interrupted (files : FileSystem) (calm disturbed : Session ε) : Prop where
  client : disturbed.client = calm.client
  line : disturbed.line = calm.line
  requests : (disturbed.requests.toSource files).Alike (calm.requests.toSource files)
  responses : calm.responses.Interrupted Response.frameSize disturbed.responses

namespace Server

/-- A session that is interrupted ends as it would otherwise and leaves the server as it would
otherwise, unless one of its flushes is interrupted. If that makes a difference, the session ends
with the error of an interrupted response, and the server is left as `handle` would leave it if the
client had stopped after some of what it says. -/
theorem handle_interrupted {act : ε → Server ε χ → Server ε χ} {calm disturbed : Session ε}
    {s : Server ε χ} (h : calm.Interrupted s.engine.files disturbed) :
    handle act disturbed s = handle act calm s ∨
      (∃ outcome ∈ disturbed.responses.flushes, FlushInterrupted outcome) ∧
        (handle act disturbed s).1 = .error (.interrupted "response") ∧
        ∃ heard : Source ε, heard.atoms <+: Source.atoms (calm.requests.toSource s.engine.files) ∧
          (handle act disturbed s).2 =
            (handle act { calm with requests := .source heard } s).2 := by
  have htalk : disturbed.talk s.engine.files = calm.talk s.engine.files :=
    Talk.ofSource_of_alike h.requests
  have hserved := @serveTalk_interrupted ε χ act calm.client calm.line disturbed.responses.flushes
    [] (Source.atoms (calm.requests.toSource s.engine.files)) _ _
    (s.setState calm.client .active) h.responses (List.Subset.refl _)
  have hends : ∀ {x y : Except Error SessionEnd × Sink × Server ε χ}, LeavesSame x y →
      y.2.2.finish calm.client calm.line y.2.1 = x.2.2.finish calm.client calm.line x.2.1 := by
    rintro x y ⟨hlevel, hserver⟩
    rw [hserver, finish_of_level hlevel]
  simp only [handle_eq, htalk, h.client, h.line]
  rcases hserved with ⟨hresult, hleaves⟩ | ⟨hflush, hresult, heard, hheard, hleaves⟩
  · exact .inl (Prod.ext hresult (hends hleaves))
  · refine .inr ⟨hflush, hresult, heard.map Atom.piece, ?_, ?_⟩
    · rw [Source.atoms_map_piece]
      exact hheard
    · have hsaid : Session.talk { calm with requests := .source (heard.map Atom.piece) }
          s.engine.files = .ofAtoms [] heard :=
        congrArg (Talk.ofAtoms []) (Source.atoms_map_piece heard)
      rw [hsaid]
      exact hends hleaves

/-- A client that subscribes to a key and says goodbye (`handle_interrupted`). -/
def brief : Session Unit :=
  ⟨0, .source [.bytes (0x33 :: 0x6b :: List.replicate 40 0), .bytes [0x32]], {}, "a"⟩

/-- The client of `brief`, with an interruption between the pieces of a request that comes in two,
and with one before the first response is written. -/
def briefRetried : Session Unit :=
  { brief with
    requests := .source [.bytes [0x33], .fail (.ofKind .interrupted),
      .bytes (0x6b :: List.replicate 40 0), .bytes [0x32]]
    responses := { script := [.fail (.ofKind .interrupted)] } }

/-- The client of `brief`, with an interruption of the flush of the first response. -/
def briefBrokenOff : Session Unit :=
  { brief with responses := { flushes := [some (.ofKind .interrupted)] } }

/-- A server with the client of `brief`, which has just come. -/
def welcoming : Server Unit Unit :=
  { Server.ofEngine 1 (Operation.runAll [.openChannel {}] (Engine.ofFiles 1 .bare)) () with
    roster := ⟨[⟨"a", 0, .registered⟩], [0]⟩ }

/-- The interruptions of a read and of a write in `briefRetried` do not show. -/
theorem handle_interrupted_retried :
    brief.Interrupted welcoming.engine.files briefRetried ∧
      handle (fun _ s => s) briefRetried welcoming = handle (fun _ s => s) brief welcoming ∧
      (handle (fun _ s => s) brief welcoming).1 = .ok .disconnected := by
  have hinterrupted : brief.Interrupted welcoming.engine.files briefRetried :=
    { client := rfl
      line := rfl
      requests := rfl
      responses := ⟨.add rfl .nil, .nil, rfl, rfl, rfl⟩ }
  refine ⟨hinterrupted, ?_, by decide +kernel⟩
  rcases @handle_interrupted Unit Unit (fun _ s => s) brief briefRetried welcoming hinterrupted with
    h | ⟨⟨outcome, hmem, -⟩, -⟩
  · exact h
  · cases hmem

/-- The interruption of a flush in `briefBrokenOff` shows: the client is not disconnected in good
order, and its second request is not answered. -/
theorem handle_interrupted_brokenOff :
    brief.Interrupted welcoming.engine.files briefBrokenOff ∧
      (handle (fun _ s => s) brief welcoming).1 = .ok .disconnected ∧
      (handle (fun _ s => s) brief welcoming).2.engine.writtenOn "a" = [0x33, 0x31, 0x32, 0x30] ∧
      (handle (fun _ s => s) briefBrokenOff welcoming).1 = .error (.interrupted "response") ∧
      (handle (fun _ s => s) briefBrokenOff welcoming).2.engine.writtenOn "a" = [0x33, 0x31] := by
  refine ⟨⟨rfl, rfl, rfl, ⟨.nil, .add ⟨_, rfl, rfl⟩ .nil, rfl, rfl, rfl⟩⟩, ?_, ?_, ?_, ?_⟩
  · decide +kernel
  · decide +kernel
  · decide +kernel
  · decide +kernel

end Server

end KeyWatch
