import KeyWatch.Proofs.Queue.Backlog
import KeyWatch.Proofs.Session.Answers

/-!
# What the server does for one client

What the server does for one client it does on that client's response line alone: to all others
(`Server.SparesOthers`) it makes no difference whether a client is taken in, is answered, or goes.
A client whose line takes everything is answered as it is taken in or not, and only with a session
in the queue if it is (`Server.enrol_of_willing`); each of its requests but one to connect is
answered with the operation that it asks for (`Server.answer_eq_of_willing`).
-/

namespace KeyWatch

/-! ## The queue -/

/-- A queue that is open is full (`isFull`) if it holds as many items as it may. -/
theorem Queue.Holds.isFull_iff {α : Type} {q : Queue α} {b : Backlog α} (h : q.Holds b)
    (hopen : b.closed = false) : q.isFull = true ↔ b.items.length = b.bound := by
  rw [Queue.isFull, h.closed, h.size, h.capacity, hopen, Bool.not_false, Bool.true_and,
    beq_iff_eq]

namespace Server

variable {ε χ : Type} {s now later : Server ε χ} {line : String}

/-- To drop a client by `release` leaves the queue as it is. -/
@[simp] theorem queue_release (s : Server ε χ) (client : ClientHandle) :
    (s.release client).queue = s.queue := by
  unfold release
  split
  · rfl
  · split
    · rfl
    · rfl

/-- To do what a client asks for by `perform` leaves the queue as it is. -/
@[simp] theorem queue_perform (s : Server ε χ) (client : ClientHandle) (r : Request) :
    (s.perform client r).2.queue = s.queue := by
  unfold perform
  split
  case h_1 | h_4 | h_5 | h_6 => rfl
  case h_2 => exact queue_release s client
  case h_3 =>
    split
    · rfl
    · rfl

/-- To answer a request by `answer` leaves the queue as it is. -/
@[simp] theorem queue_answer (s : Server ε χ) (client : ClientHandle) (line : String) (out : Sink)
    (r : Request) : (s.answer client line out r).2.2.queue = s.queue := by
  have hperform := s.queue_perform client r
  unfold answer
  generalize s.perform client r = done at hperform ⊢
  obtain ⟨response, after⟩ := done
  cases response with
  | none => exact hperform
  | some response =>
    simp only [reply]
    split
    · exact hperform
    · exact hperform

/-! ## Other lines -/

/-- Nothing was done on any response line but one, and every client has kept its id
(`Server.Spares`). -/
def SparesOthers (line : String) (s now : Server ε χ) : Prop :=
  ∀ client other, line ≠ other → s.Spares client other now

/-- What spares the other lines one after another spares them (`SparesOthers`). -/
theorem SparesOthers.trans (h : s.SparesOthers line now) (h' : now.SparesOthers line later) :
    s.SparesOthers line later :=
  fun client other hline => (h client other hline).trans (h' client other hline)

/-- The end of a session by `finish` writes on its own line alone. -/
theorem sparesOthers_finish (s : Server ε χ) (client : ClientHandle) (line : String) (out : Sink) :
    s.SparesOthers line (s.finish client line out) :=
  fun _ _ hline => (Spares.release s client).trans (Spares.emitResponse hline _ out _)

/-! ## A line that takes everything -/

/-- A response goes out whole on a willing line by `reply`, and the line stays willing. -/
theorem reply_of_willing (s : Server ε χ) (line : String) {out : Sink} (hout : out.Willing)
    (r : Response) : ∃ out', s.reply line out r =
      (none, out', s.emitResponse line out (some r.encode)) ∧ out'.Willing := by
  obtain ⟨herror, hemitted, hafter⟩ := hout.send "response" r.encode
  refine ⟨_, ?_, hafter⟩
  simp only [reply, Response.write, herror, hemitted]

/-- A willing line holds nothing back, so nothing leaves it by `hangUp`, when it is closed. -/
theorem hangUp_of_willing (s : Server ε χ) (line : String) {out : Sink} (hout : out.Willing) :
    s.hangUp line out = s := by
  have hnothing : out.remainder = none := by
    rw [Sink.remainder, hout.pending]
    rfl
  rw [hangUp, hnothing]
  rfl

/-- A client that comes on a willing line (`Sink.Willing`) is told that it is refused, and the queue
is as it was; or it is told that it is taken in, and its session is the last in the queue; or it
waits, and then the queue is full. -/
theorem enrol_of_willing {held : Backlog (Session ε)} {out : Sink} (hholds : s.queue.Holds held)
    (hopen : held.closed = false) (hout : out.Willing) (id : String) (requests : Inlet ε)
    (line : String) (channel : ChannelId) :
    (∃ w now, s.queue.isFull = true ∧
        s.enrol id requests out line channel = (.waiting w, now)) ∨
      (∃ now, s.enrol id requests out line channel = (.settled (.ok false), now) ∧
        now.queue = s.queue ∧
        now.engine.writtenOn line =
          s.engine.writtenOn line ++ Response.encode ⟨.connect, .failed⟩) ∨
      ∃ now session, s.enrol id requests out line channel = (.settled (.ok true), now) ∧
        session.line = line ∧ session.responses.Willing ∧
        (now.roster.record? session.client).isSome = true ∧
        now.queue.Holds { held with items := held.items ++ [session] } ∧
        now.engine.writtenOn line =
          s.engine.writtenOn line ++ Response.encode ⟨.connect, .ok⟩ := by
  simp only [enrol]
  split
  case h_1 =>
    obtain ⟨out', hreply, hout'⟩ := s.reply_of_willing line hout ⟨.connect, .failed⟩
    simp only [hreply]
    rw [hangUp_of_willing _ line hout']
    refine .inr (.inl ⟨_, rfl, rfl, ?_⟩)
    refine (Engine.writtenOn_closeChannel _ channel line).trans ?_
    exact writtenOn_emitResponse s line hout _
  case h_2 roster hinsert =>
    obtain ⟨out', hreply, hout'⟩ :=
      reply_of_willing { s with roster } line hout ⟨.connect, .ok⟩
    simp only [hreply, enqueue, queue_emitResponse]
    by_cases hfull : s.queue.isFull = true
    · have hwaits := fun session => (hholds.isNone_push? session).trans hfull
      simp only [Option.isNone_iff_eq_none] at hwaits
      rw [hwaits]
      exact .inl ⟨_, _, hfull, rfl⟩
    · have hplace : held.items.length < held.bound :=
        Nat.lt_of_le_of_ne hholds.fits (mt (hholds.isFull_iff hopen).2 hfull)
      obtain ⟨queue, hpush, hqueue⟩ :=
        hholds.push (x := ⟨(s.roster.add id channel).1, requests, out', line⟩) hopen hplace
      simp only [hpush]
      refine .inr (.inr ⟨_, _, rfl, rfl, hout', ?_, hqueue, ?_⟩)
      · obtain ⟨rfl, -⟩ := Roster.of_insert hinsert
        have hrecord := Roster.record?_add s.roster id channel (s.roster.add id channel).1
        exact Option.isSome_of_eq_some (hrecord.trans (if_pos rfl))
      · exact writtenOn_emitResponse { s with roster } line hout _

/-- What the intake does with a registration once the client's pipes are open is to take the client
in (`Server.enrol`), and it waits with it if that waits. -/
theorem intake_enlist_of_openPipes {r : Registration} (hgoes : s.stopping = false)
    (hopen : openPipes r s.engine.files = .ok (.fifo, .fifo, .fifo)) :
    s.intake enlist (.ok (some r)) =
      let (enrolment, now) := (s.openChannel {}).2.enrol r.clientId (.opened .fifo) {}
        r.response.shown (s.openChannel {}).1
      (.handed r enrolment.waiter?, now) := by
  have hsink : sinkOf .fifo = {} := rfl
  simp only [intake, hgoes, enlist, register, hopen, hsink, Bool.false_eq_true, if_false]
  generalize Server.enrol (s.openChannel {}).2 r.clientId (.opened .fifo) {} r.response.shown
    (s.openChannel {}).1 = enrolled
  obtain ⟨_ | w, now⟩ := enrolled
  · rfl
  · rfl

/-- A request but one to connect is answered by `answer` on a willing line, with the operation that
it asks for. The session goes on unless the client disconnects. -/
theorem answer_eq_of_willing {client : ClientHandle} {out : Sink} {r : Request}
    (hclient : (s.roster.record? client).isSome = true) (hout : out.Willing) (line : String)
    (hcall : r ≠ .connect) :
    ∃ answer out' after, (s.perform client r).1 = some answer ∧ answer.op = r.op ∧
      s.answer client line out r =
        (if r = .disconnect then some (.ok .disconnected) else none, out', after) ∧
      out'.Willing ∧ (after.roster.record? client).isSome = true ∧
      after.engine.writtenOn line = s.engine.writtenOn line ++ answer.encode := by
  obtain ⟨c, hc⟩ := Option.isSome_iff_exists.1 hclient
  obtain ⟨out', after, hanswer, hout', hwritten, c', hc', -⟩ :=
    answer_of_willing hc hout line r
  have hdue : s.due c.id r = some ⟨r.op, if s.grants c.id r then .ok else .failed⟩ := by
    cases r with
    | connect => exact absurd rfl hcall
    | disconnect | subscribe | unsubscribe => rfl
  rw [dueBytes, hdue] at hwritten
  exact ⟨_, out', after, (perform_fst hc r).trans hdue, rfl, hanswer, hout',
    Option.isSome_of_eq_some hc', hwritten⟩

/-! ## What is done about a session -/

/-- What the server does about what it read of a session's requests: it acts on it
(`Server.attend`), and if the session ends there its client is dropped (`Server.finish`). -/
def tend (session : Session ε) (request : Except Error (Option Request)) (s : Server ε χ) :
    (Option (Except Error SessionEnd) × Sink) × Server ε χ :=
  let (ended, out, s) := s.attend session.client session.line session.responses request
  match ended with
  | some _ => ((ended, out), s.finish session.client session.line out)
  | none => ((ended, out), s)

/-- A session that is tended by `tend` ends where what was read says so (`attend`). -/
theorem tend_ending (session : Session ε) (request : Except Error (Option Request))
    (s : Server ε χ) : (s.tend session request).1.1 =
      (s.attend session.client session.line session.responses request).1 := by
  unfold tend
  generalize s.attend session.client session.line session.responses request = attended
  obtain ⟨_ | result, out, after⟩ := attended
  · rfl
  · rfl

/-- To `tend` a session does nothing on other lines. -/
theorem sparesOthers_tend (session : Session ε) (request : Except Error (Option Request))
    (s : Server ε χ) : s.SparesOthers session.line (s.tend session request).2 := by
  have hattend : s.SparesOthers session.line
      (s.attend session.client session.line session.responses request).2.2 :=
    fun _ _ hline => Spares.attend hline s session.client session.responses request
  unfold tend
  generalize s.attend session.client session.line session.responses request = attended at hattend ⊢
  obtain ⟨ending, out, after⟩ := attended
  cases ending with
  | none => exact hattend
  | some result => exact hattend.trans (sparesOthers_finish after session.client session.line out)

/-- To `tend` a session leaves the queue as it is. -/
@[simp] theorem queue_tend (session : Session ε) (request : Except Error (Option Request))
    (s : Server ε χ) : (s.tend session request).2.queue = s.queue := by
  have hattend : (s.attend session.client session.line session.responses request).2.2.queue =
      s.queue := by
    rcases request with fault | _ | r
    · rfl
    · rfl
    · exact queue_answer s session.client session.line session.responses r
  unfold tend
  generalize s.attend session.client session.line session.responses request = attended at hattend ⊢
  obtain ⟨ending, out, after⟩ := attended
  cases ending with
  | none => exact hattend
  | some result => exact (queue_release after session.client).trans hattend

/-- A request but one to connect is answered by `tend` with the operation that it asks for. The
session ends if the client disconnects, and is ready for the next request otherwise. -/
theorem tend_request {session : Session ε} {r : Request}
    (hclient : (s.roster.record? session.client).isSome = true)
    (hout : session.responses.Willing) (hcall : r ≠ .connect) :
    ∃ answer out, (s.perform session.client r).1 = some answer ∧ answer.op = r.op ∧
      (s.tend session (.ok (some r))).1 =
        (if r = .disconnect then some (.ok .disconnected) else none, out) ∧
      (s.tend session (.ok (some r))).2.engine.writtenOn session.line =
        s.engine.writtenOn session.line ++ answer.encode ∧
      (r ≠ .disconnect → out.Willing ∧
        ((s.tend session (.ok (some r))).2.roster.record? session.client).isSome = true) := by
  obtain ⟨answer, out, after, hperform, hop, hanswer, hout', hclient', hwritten⟩ :=
    answer_eq_of_willing hclient hout session.line hcall
  refine ⟨answer, out, hperform, hop, ?_⟩
  rw [tend, attend, hanswer]
  rcases Decidable.em (r = .disconnect) with rfl | hmore
  · refine ⟨rfl, ?_, fun hmore => absurd rfl hmore⟩
    exact (writtenOn_finish after session.client session.line hout').trans hwritten
  · rw [if_neg hmore]
    exact ⟨rfl, hwritten, fun _ => ⟨hout', hclient'⟩⟩

/-- At the end of its requests a session that is tended by `tend` ends in good order. -/
theorem tend_end (session : Session ε) (s : Server ε χ) :
    (s.tend session (.ok none)).1 = (some (.ok .hangup), session.responses) := rfl

end Server

end KeyWatch
