import KeyWatch.Proofs.Notice.Delivery
import KeyWatch.Proofs.Store.Operation
import KeyWatch.Session.Serve

/-!
# What is written on a response line

The bytes that have left on a response line (`Engine.writtenOn`) are written by the session that has
the line, and by nobody else: notices leave on the lines of channels, and every other session writes
on a line of its own. So whatever happens elsewhere spares a session (`Server.Spares`): it leaves
the session's line alone, and the client's id. That is shown of every operation on the store
(`Spares.run`), of clients that come (`Spares.enrol`), and of the handling of other sessions, be it
nested (`Spares.handle`).

To do what the client asks for spares its own session too (`Spares.perform`): of all that a session
does for its client the answer alone is written on the line.
-/

namespace KeyWatch

/-- The bytes of the emissions on a line, in order. -/
def Emission.bytesOn (line : Line) (out : List Emission) : Bytes :=
  (out.filter (·.line == line)).flatMap Emission.bytes

/-- On a line on which nothing left there are no bytes (`bytesOn`). -/
theorem Emission.bytesOn_eq_nil {line : Line} {out : List Emission} (h : ∀ o ∈ out, o.line ≠ line) :
    bytesOn line out = [] := by
  have hnone : out.filter (·.line == line) = [] :=
    List.filter_eq_nil_iff.2 fun o ho heq => h o ho (beq_iff_eq.1 heq)
  rw [bytesOn, hnone]
  rfl

/-! ## Notices -/

/-- The sink of a channel has no response line (`Sink.line`): it is the channel's or a file. -/
theorem Sink.line_ne_response (s : Sink) (id : Nat) (line : String) :
    s.line (.notification id) ≠ .response line := by
  unfold Sink.line
  split <;> nofun

namespace Channels

/-- A notice that is sent by `Channels.send` leaves on no response line. -/
theorem line_of_mem_send {cs : Channels} {n : Notice} {o : Emission}
    (h : o ∈ (cs.send n).emissions) (line : String) : o.line ≠ .response line := by
  unfold send at h
  split at h
  case h_1 => cases h
  case h_2 =>
    split at h
    case h_1 => cases h
    case h_2 sink _ =>
      obtain ⟨bytes, -, rfl⟩ := List.mem_map.1 h
      exact sink.line_ne_response n.channel line

/-- Notices that are delivered by `Channels.deliver` leave on no response line. -/
theorem line_of_mem_deliver {notices : List Notice} {cs : Channels} {o : Emission}
    (h : o ∈ (deliver notices cs).emissions) (line : String) : o.line ≠ .response line := by
  induction notices generalizing cs with
  | nil => cases h
  | cons n rest ih =>
    rw [deliver] at h
    split at h
    case isTrue => exact ih h
    case isFalse =>
      rcases List.mem_append.1 h with hfirst | hmore
      · exact line_of_mem_send hfirst line
      · exact ih hmore

/-- A channel that is closed by `Channels.close` leaves nothing on a response line. -/
theorem line_of_mem_close {cs : Channels} {id : ChannelId} {o : Emission}
    (h : o ∈ (cs.close id).1) (line : String) : o.line ≠ .response line := by
  unfold close at h
  split at h
  case h_1 => cases h
  case h_2 sink _ =>
    obtain ⟨bytes, -, rfl⟩ := List.mem_map.1 h
    exact sink.line_ne_response id line

end Channels

/-! ## The store -/

namespace Engine

/-- The bytes that have left on the response line of a name (`Engine.sent`). -/
def writtenOn (e : Engine) (line : String) : Bytes := Emission.bytesOn (.response line) e.sent

/-- What leaves on a line by `emitAll` comes behind what has left there (`writtenOn`). -/
theorem writtenOn_emitAll (e : Engine) (out : List Emission) (line : String) :
    (e.emitAll out).writtenOn line =
      e.writtenOn line ++ Emission.bytesOn (.response line) out := by
  rw [writtenOn, Emission.bytesOn, filter_sent_emitAll (fun _ _ => rfl), List.flatMap_append]
  rfl

/-- What leaves by `emitAll` on other lines leaves a response line as it was. -/
theorem writtenOn_emitAll_of_ne {e : Engine} {out : List Emission} {line : String}
    (h : ∀ o ∈ out, o.line ≠ .response line) :
    (e.emitAll out).writtenOn line = e.writtenOn line := by
  rw [writtenOn_emitAll, Emission.bytesOn_eq_nil h, List.append_nil]

/-- Notices that are delivered by `Engine.deliver` leave a response line as it was. -/
theorem writtenOn_deliver (e : Engine) (notices : List Notice) (line : String) :
    (e.deliver notices).writtenOn line = e.writtenOn line := by
  rw [writtenOn, (e.deliver_eq notices).2]
  exact writtenOn_emitAll_of_ne fun o ho => Channels.line_of_mem_deliver ho line

/-- A channel that is closed by `Engine.closeChannel` leaves a response line as it was. -/
theorem writtenOn_closeChannel (e : Engine) (id : ChannelId) (line : String) :
    (e.closeChannel id).writtenOn line = e.writtenOn line :=
  writtenOn_emitAll_of_ne fun _ ho => Channels.line_of_mem_close ho line

/-- No operation on the store (`Operation.run`) writes on a response line. -/
theorem writtenOn_run (e : Engine) (op : Operation) (line : String) :
    (op.run e).writtenOn line = e.writtenOn line := by
  cases op with
  | write | writeMany | delete | deleteMany => exact writtenOn_deliver _ _ line
  | unsubscribe | removeAll | openChannel => rfl
  | closeChannel channel => exact writtenOn_closeChannel e channel line
  | subscribe key client channel =>
    simp only [Operation.run]
    split
    case h_1 after hs =>
      obtain ⟨table, -, rfl⟩ := subscribe_eq_ok hs
      rfl
    case h_2 => rfl

end Engine

/-! ## What happens elsewhere -/

namespace Server

variable {ε χ : Type}

/-- A server in which a client has kept its id, and nothing was written on a response line
(`Engine.writtenOn`). -/
structure Spares (client : ClientHandle) (line : String) (s now : Server ε χ) : Prop where
  record : ∀ c, s.roster.record? client = some c →
    ∃ c', now.roster.record? client = some c' ∧ c'.id = c.id
  written : now.engine.writtenOn line = s.engine.writtenOn line

namespace Spares

variable {client : ClientHandle} {line : String} {s now later : Server ε χ}

/-- A server that does not change is spared (`Spares`). -/
theorem refl (client : ClientHandle) (line : String) (s : Server ε χ) : s.Spares client line s :=
  ⟨fun c hc => ⟨c, hc, rfl⟩, rfl⟩

/-- What spares a session one after another spares it (`Spares`). -/
theorem trans (h : s.Spares client line now) (h' : now.Spares client line later) :
    s.Spares client line later := by
  refine ⟨fun c hc => ?_, h'.written.trans h.written⟩
  obtain ⟨c', hc', hid⟩ := h.record c hc
  obtain ⟨c'', hc'', hid'⟩ := h'.record c' hc'
  exact ⟨c'', hc'', hid'.trans hid⟩

/-- A change that leaves the clients as they are and writes nothing on the line spares a session
(`Spares`). -/
theorem of_written (hroster : now.roster = s.roster)
    (hwritten : now.engine.writtenOn line = s.engine.writtenOn line) : s.Spares client line now :=
  ⟨fun c hc => ⟨c, hroster ▸ hc, rfl⟩, hwritten⟩

/-- A change of the queue spares a session, whatever was done before (`Spares`). -/
theorem queue (h : s.Spares client line now) (queue : Queue (Session ε)) :
    s.Spares client line { now with queue } :=
  ⟨h.record, h.written⟩

/-- An operation on the store (`Operation.run`) spares every session. -/
theorem run (s : Server ε χ) (op : Operation) :
    s.Spares client line { s with engine := op.run s.engine } :=
  of_written rfl (Engine.writtenOn_run s.engine op line)

/-- A client, be it the session's own, that changes its state by `Server.setState` keeps its id, so
the session is spared. -/
theorem setState (s : Server ε χ) (other : ClientHandle) (state : ClientState) :
    s.Spares client line (s.setState other state) := by
  refine ⟨fun c hc => ?_, rfl⟩
  show ∃ c', (s.roster.setState other state).record? client = some c' ∧ c'.id = c.id
  by_cases hsame : client = other
  · subst hsame
    exact ⟨_, Roster.record?_setState_self hc state, rfl⟩
  · exact ⟨c, (Roster.record?_setState_of_ne hsame state).trans hc, rfl⟩

/-- To close a channel by `Server.closeChannel` spares every session. -/
theorem closeChannel (s : Server ε χ) (id : ChannelId) : s.Spares client line (s.closeChannel id) :=
  of_written rfl (Engine.writtenOn_closeChannel s.engine id line)

/-- To dismiss a client by `Server.dismiss` spares every session, its own too: the record stays. -/
theorem dismiss (s : Server ε χ) (other : ClientHandle) (channel : ChannelId) :
    s.Spares client line (s.dismiss other channel) :=
  ⟨fun c hc => ⟨c, hc, rfl⟩, Engine.writtenOn_closeChannel _ channel line⟩

/-- To drop a client by `Server.release`, be it the session's own, spares the session. -/
theorem release (s : Server ε χ) (other : ClientHandle) :
    s.Spares client line (s.release other) := by
  unfold Server.release
  split
  case h_1 => exact refl client line s
  case h_2 record _ =>
    split
    case isTrue => exact refl client line s
    case isFalse =>
      have hleaving := @setState ε χ client line s other .disconnecting
      exact ((hleaving.trans (run _ (.removeAll record.id))).trans (dismiss _ other _)).trans
        (setState _ other .closed)

/-- To do what a client asks for by `Server.perform`, be it the session's own client, spares the
session: it is not answered yet. -/
theorem perform (s : Server ε χ) (other : ClientHandle) (r : Request) :
    s.Spares client line (s.perform other r).2 := by
  unfold Server.perform
  split
  case h_1 | h_5 | h_6 => exact refl client line s
  case h_2 => exact release s other
  case h_3 key record _ =>
    split
    case h_1 engine hs =>
      obtain ⟨table, -, rfl⟩ := Engine.subscribe_eq_ok hs
      exact of_written rfl rfl
    case h_2 => exact refl client line s
  case h_4 key record _ => exact of_written rfl rfl

/-! ### Other sessions -/

variable {line' : String} {act : ε → Server ε χ → Server ε χ}

/-- What is written on another response line, or in a file, by `emitResponse` spares the session. -/
theorem emitResponse (hline : line' ≠ line) (s : Server ε χ) (out : Sink)
    (emitted : Option Bytes) : s.Spares client line (s.emitResponse line' out emitted) := by
  refine of_written rfl (Engine.writtenOn_emitAll_of_ne fun o ho => ?_)
  obtain ⟨bytes, -, rfl⟩ := List.mem_map.1 ho
  show out.line (.response line') ≠ .response line
  unfold Sink.line
  split
  case h_1 => nofun
  case h_2 =>
    intro heq
    cases heq
    exact hline rfl

/-- To `react` to events that spare the session spares it. -/
theorem react (hact : ∀ e (s : Server ε χ), s.Spares client line (act e s)) (s : Server ε χ)
    (events : List ε) : s.Spares client line (s.react act events) := by
  unfold Server.react
  induction events generalizing s with
  | nil => exact refl client line s
  | cons e rest ih => exact (hact e s).trans (ih (act e s))

/-- To attend to another session by `Server.attend` spares the session: it writes on a line of its
own. -/
theorem attend (hline : line' ≠ line) (s : Server ε χ) (other : ClientHandle) (out : Sink)
    (received : Except Error (Option Request)) :
    s.Spares client line (s.attend other line' out received).2.2 := by
  cases received with
  | error fault => exact refl client line s
  | ok found =>
    cases found with
    | none => exact refl client line s
    | some r =>
      have hperform := @perform ε χ client line s other r
      simp only [Server.attend, Server.answer]
      generalize s.perform other r = done at hperform ⊢
      obtain ⟨response, after⟩ := done
      cases response with
      | none => exact hperform
      | some response =>
        simp only [Server.reply]
        split <;> exact hperform.trans (emitResponse hline after out _)

/-- To serve all requests of another session by `Server.serveAll`, with events that spare the
session, spares it. -/
theorem serveAll (hact : ∀ e (s : Server ε χ), s.Spares client line (act e s))
    (hline : line' ≠ line) (other : ClientHandle) (requests : List (Received ε Request))
    (out : Sink) (s : Server ε χ) :
    s.Spares client line (Server.serveAll act other line' requests out s).2.2 := by
  induction requests generalizing out s with
  | nil => exact refl client line s
  | cons received rest ih =>
    rw [Server.serveAll]
    have hreact := react hact s received.events
    have hattend := @attend ε χ client line line' hline (s.react act received.events) other out
      received.result
    generalize (s.react act received.events).attend other line' out received.result = done
      at hattend ⊢
    obtain ⟨ending, out', after⟩ := done
    cases ending with
    | some result => exact hreact.trans hattend
    | none => exact (hreact.trans hattend).trans (ih out' after)

/-- To handle another session by `Server.handle`, with events that spare the session, spares it. -/
theorem handle (hact : ∀ e (s : Server ε χ), s.Spares client line (act e s)) {session : Session ε}
    (hline : session.line ≠ line) (s : Server ε χ) :
    s.Spares client line (Server.handle act session s).2 := by
  have hbegun := @setState ε χ client line s session.client .active
  have hserved := serveAll hact hline session.client
    (readAll Request.read (session.requests.toSource s.engine.files)) session.responses
    (s.setState session.client .active)
  exact ((hbegun.trans hserved).trans (release _ session.client)).trans (emitResponse hline _ _ _)

/-- To queue the session of a client with another response line (`Server.enqueue`), or to dismiss
the client again, leaves a line alone. -/
theorem enqueue (s : Server ε χ) {w : Waiter ε} (hline : w.session.line ≠ line) :
    s.Spares client line (s.enqueue w).2 := by
  unfold Server.enqueue
  split
  case h_1 => exact refl client line s
  case h_2 returned queue hpush =>
    have hpushed := (refl client line s).queue queue
    exact (hpushed.trans (emitResponse hline _ _ _)).trans (dismiss _ _ w.channel)
  case h_3 queue hpush => exact (refl client line s).queue queue

/-- To take in a client with another response line (`Server.enrol`) leaves a line alone, whether or
not the client is taken in or has to wait. -/
theorem enrol (hline : line' ≠ line) (s : Server ε χ) (id : String) (requests : Inlet ε)
    (responses : Sink) (channel : ChannelId) :
    s.Spares client line (s.enrol id requests responses line' channel).2 := by
  simp only [Server.enrol, Server.reply]
  split
  case h_1 =>
    -- a client of the id is present
    have hanswered := (refl client line s).trans (emitResponse hline s responses
      (Response.write ⟨.connect, .failed⟩ responses).emitted)
    split
    · exact hanswered.trans (emitResponse hline _ _ _)
    · exact (hanswered.trans (closeChannel _ channel)).trans (emitResponse hline _ _ _)
  case h_2 roster hinsert =>
    have hentered : s.Spares client line { s with roster } := by
      refine ⟨fun c hc => ⟨c, ?_, rfl⟩, rfl⟩
      have hother : client ≠ s.roster.records.length := Roster.ne_length_of_record? hc
      exact (Roster.extends_insert hinsert client hother).1.trans hc
    have hanswered := hentered.trans (emitResponse hline _ responses
      (Response.write ⟨.connect, .ok⟩ responses).emitted)
    split
    case h_1 =>
      -- the answer does not go out
      exact (hanswered.trans (dismiss _ _ channel)).trans (emitResponse hline _ _ _)
    case h_2 => exact hanswered.trans (enqueue _ hline)

end Spares

end Server

end KeyWatch
