import Mathlib.Logic.Relation
import KeyWatch.Proofs.Session.Sound
import KeyWatch.Proofs.Store.Operation

/-!
# Subscriptions live no longer than their sessions

A server is looked at while it serves sessions (`Reception`): between two reads of a session
everything else may happen, other sessions included (`Reception.Move`). In whatever order clients
come, sessions are begun, read on and ended, entries change and the queue is closed, every
subscriber is a client that is present and served, on that client's own channel (`served_of_leads`).

To handle a session from its begin to its end, with events between its reads, is a row of moves if
the events are (`leads_handle`), so what holds wherever moves lead holds before, within and after
the handling of sessions, however sessions are nested in the reads of others.

The invariant speaks of the sessions in between as well (`Reception.Sound`): who is attended to is
present and served, or has been dropped already and is read no more.
-/

namespace KeyWatch

/-- A session that is being served: its client, its response line, and what is still to be read of
its requests (`readAll`). -/
structure Attendance (ε : Type) where
  client : ClientHandle
  line : String
  out : Sink
  requests : List (Received ε Request)

/-- A server and the sessions that it is serving (`Attendance`), between two of their reads. -/
structure Reception (ε χ : Type) where
  server : Server ε χ
  attended : List (Attendance ε)

variable {ε χ : Type}

namespace Reception

/-- What may happen next. A client comes on a new channel and does not have to wait for room in the
queue: that it finds its id taken or its response line broken may happen while the queue is full
(`Server.enrol`). A session is taken from the queue and begun, or none is left; a session is read on
by one request (`Server.attend`), after which it may be over; a session that is over ends
(`Server.finish`); an operation on entries is run; the queue is closed; channels that no client
present has are closed; or something happens that is none of the table's, the channels', the
clients' and the queue's business. -/
inductive Move : Reception ε χ → Reception ε χ → Prop where
  | enrol {s now : Server ε χ} {l : List (Attendance ε)} {id : String} {requests : Inlet ε}
      {responses sink : Sink} {line : String} {result : Except Error Bool}
      (h : (s.openChannel sink).2.enrol id requests responses line (s.openChannel sink).1 =
        (.settled result, now)) :
      Move ⟨s, l⟩ ⟨now, l⟩
  | begin {s : Server ε χ} {l : List (Attendance ε)} {session : Session ε}
      {queue : Queue (Session ε)} (h : s.queue.pop? = some (some session, queue)) :
      Move ⟨s, l⟩ ⟨Server.setState { s with queue } session.client .active,
        ⟨session.client, session.line, session.responses,
          readAll Request.read (session.requests.toSource s.engine.files)⟩ :: l⟩
  | drained {s : Server ε χ} {l : List (Attendance ε)} {queue : Queue (Session ε)}
      (h : s.queue.pop? = some (none, queue)) :
      Move ⟨s, l⟩ ⟨{ s with queue }, l⟩
  | attend {s now : Server ε χ} {l r : List (Attendance ε)} {client : ClientHandle} {line : String}
      {out out' : Sink} {received : Received ε Request} {rest : List (Received ε Request)}
      {ending : Option (Except Error SessionEnd)}
      (h : s.attend client line out received.result = (ending, out', now)) :
      Move ⟨s, l ++ ⟨client, line, out, received :: rest⟩ :: r⟩
        ⟨now, l ++ ⟨client, line, out', if ending.isSome then [] else rest⟩ :: r⟩
  | finish {s : Server ε χ} {l r : List (Attendance ε)} {client : ClientHandle} {line : String}
      {out : Sink} :
      Move ⟨s, l ++ ⟨client, line, out, []⟩ :: r⟩ ⟨s.finish client line out, l ++ r⟩
  | entries {s : Server ε χ} {l : List (Attendance ε)} {op : Operation}
      (h : op.isOnEntries = true) :
      Move ⟨s, l⟩ ⟨{ s with engine := op.run s.engine }, l⟩
  | close {s : Server ε χ} {l : List (Attendance ε)} :
      Move ⟨s, l⟩ ⟨{ s with queue := s.queue.close }, l⟩
  | settle {s : Server ε χ} {l : List (Attendance ε)} {held : List ChannelId}
      (h : ∀ j ∈ s.roster.present, ∀ record, s.roster.record? j = some record →
        record.channel ∈ held) :
      Move ⟨s, l⟩ ⟨{ s with engine := s.engine.settle held }, l⟩
  | aside {s now : Server ε χ} {l : List (Attendance ε)}
      (htable : now.engine.table = s.engine.table)
      (hchannels : now.engine.channels = s.engine.channels) (hroster : now.roster = s.roster)
      (hqueue : now.queue = s.queue) :
      Move ⟨s, l⟩ ⟨now, l⟩

/-- What may happen in any number of moves (`Move`), one after another. -/
abbrev Leads : Reception ε χ → Reception ε χ → Prop := Relation.ReflTransGen Move

end Reception

/-! ## Who is attended to -/

/-- The client of a session that is being served is present and active (`Roster.PresentAs`), or has
been dropped already and is read no more. -/
def Attendance.Served (r : Roster) (a : Attendance ε) : Prop :=
  r.PresentAs a.client .active ∨ a.requests = [] ∧ r.stateOf a.client = some .closed

namespace Attendance.Served

variable {r after : Roster} {a : Attendance ε}

/-- A client is `Served` by another roster in which its record is the same and in which it is
present if it was. -/
theorem congr (h : a.Served r) (hrecord : after.record? a.client = r.record? a.client)
    (hpresent : a.client ∈ r.present → a.client ∈ after.present) : a.Served after := by
  have hstate : after.stateOf a.client = r.stateOf a.client :=
    congrArg (Option.map ClientRecord.state) hrecord
  rcases h with ⟨hmem, hactive⟩ | ⟨hover, hclosed⟩
  · exact .inl ⟨hpresent hmem, hstate.trans hactive⟩
  · exact .inr ⟨hover, hstate.trans hclosed⟩

/-- Who is `Served` has a record, and does not wait any more. -/
theorem exists_record (h : a.Served r) : ∃ c, r.record? a.client = some c ∧
    c.state ≠ .registered := by
  have hstate : r.stateOf a.client = some .active ∨ r.stateOf a.client = some .closed :=
    h.imp And.right And.right
  rcases hstate with hstate | hstate
  · obtain ⟨c, hc, hc'⟩ := Option.map_eq_some_iff.1 hstate
    exact ⟨c, hc, by rw [hc']; nofun⟩
  · obtain ⟨c, hc, hc'⟩ := Option.map_eq_some_iff.1 hstate
    exact ⟨c, hc, by rw [hc']; nofun⟩

/-- Who is `Served` stays so when the roster is extended (`Roster.Extends`). -/
theorem of_extends (h : a.Served r) (hextends : r.Extends after) : a.Served after := by
  obtain ⟨c, hc, -⟩ := h.exists_record
  obtain ⟨hrecord, hpresent⟩ := hextends a.client (Roster.ne_length_of_record? hc)
  exact h.congr hrecord hpresent

/-- Who is `Served` stays so when another client changes its state. -/
theorem setState (h : a.Served r) {client : ClientHandle} (hne : a.client ≠ client)
    (state : ClientState) : a.Served (r.setState client state) :=
  h.congr (Roster.record?_setState_of_ne hne state) fun hp => hp

/-- Who is `Served` stays so when another client is dropped by `Server.release`. -/
theorem release {s : Server ε χ} (h : a.Served s.roster) {client : ClientHandle}
    (hne : a.client ≠ client) : a.Served (s.release client).roster := by
  cases hrecord : s.roster.record? client with
  | none =>
    rw [Server.release, hrecord]
    exact h
  | some record =>
    by_cases hclosed : record.state = .closed
    · rw [Server.release_of_closed hrecord hclosed]
      exact h
    · rw [Server.release_of_not_closed hrecord hclosed]
      have hdetached : a.Served (s.roster.detach client) :=
        h.congr rfl fun hp => Roster.mem_present_detach.2 ⟨hp, hne⟩
      exact hdetached.setState hne .closed

end Attendance.Served

/-! ## What one move keeps -/

namespace Server.Sound

variable {s now : Server ε χ} {client : ClientHandle}

/-- What the client of a session asks for by `Server.perform` keeps the server sound and the clients
as they are, or drops the client. -/
theorem perform (h : s.Sound) (hactive : s.roster.PresentAs client .active) (r : Request) :
    (s.perform client r).2.Sound ∧
      ((s.perform client r).2.roster = s.roster ∨
        r = .disconnect ∧ (s.perform client r).1.isSome = true ∧
          (s.perform client r).2.roster = (s.release client).roster) := by
  obtain ⟨record, hrecord, -⟩ := hactive.record?
  cases r with
  | connect => exact ⟨h, .inl rfl⟩
  | disconnect => exact ⟨h.release hactive, .inr ⟨rfl, rfl, rfl⟩⟩
  | subscribe key =>
    simp only [Server.perform, hrecord]
    cases hs : s.engine.subscribe key record.id record.channel with
    | error fault => exact ⟨h, .inl rfl⟩
    | ok done => exact ⟨h.subscribe hactive hrecord hs, .inl rfl⟩
  | unsubscribe key =>
    simp only [Server.perform, hrecord]
    exact ⟨h.unsubscribe key record.id, .inl trivial⟩

/-- What `Server.attend` does with what it read of a client's requests keeps the server sound, and
the clients as they are; or it drops the client, and then the session is over. -/
theorem attend (h : s.Sound) (hactive : s.roster.PresentAs client .active) {line : String}
    {out out' : Sink} {received : Except Error (Option Request)}
    {ending : Option (Except Error SessionEnd)}
    (hattend : s.attend client line out received = (ending, out', now)) :
    now.Sound ∧ (now.roster = s.roster ∨
      ending.isSome = true ∧ now.roster = (s.release client).roster) := by
  cases received with
  | error fault =>
    cases hattend
    exact ⟨h, .inl rfl⟩
  | ok found =>
    cases found with
    | none =>
      cases hattend
      exact ⟨h, .inl rfl⟩
    | some r =>
      simp only [Server.attend, Server.answer] at hattend
      obtain ⟨hsound, hroster⟩ := h.perform hactive r
      generalize s.perform client r = done at hsound hroster hattend
      obtain ⟨response, after⟩ := done
      cases response with
      | none =>
        cases hattend
        refine ⟨hsound, hroster.imp_right ?_⟩
        rintro ⟨-, hsome, -⟩
        cases hsome
      | some response =>
        simp only [Server.reply] at hattend
        have hanswered := hsound.emitResponse line out (response.write out).emitted
        split at hattend
        · cases hattend
          exact ⟨hanswered, hroster.imp_right fun hgone => ⟨rfl, hgone.2.2⟩⟩
        · cases hattend
          refine ⟨hanswered, hroster.imp_right ?_⟩
          rintro ⟨rfl, -, hgone⟩
          exact ⟨rfl, hgone⟩

end Server.Sound

namespace Reception

/-- A sound server (`Server.Sound`) that attends to clients which are present and served, to each in
one session. -/
structure Sound (v : Reception ε χ) : Prop where
  server : v.server.Sound
  distinct : (v.attended.map Attendance.client).Nodup
  served : ∀ a ∈ v.attended, a.Served v.server.roster

namespace Sound

variable {s now : Server ε χ} {l r : List (Attendance ε)}

/-- A sound server with the same clients and more (`Roster.Extends`) goes on attending to the same
sessions soundly. -/
theorem of_extends (h : Sound ⟨s, l⟩) (hnow : now.Sound) (hextends : s.roster.Extends now.roster) :
    Sound ⟨now, l⟩ :=
  ⟨hnow, h.distinct, fun a ha => (h.served a ha).of_extends hextends⟩

/-- The sessions beside one are those of other clients (`Sound.distinct`). -/
theorem ne_client {a : Attendance ε} (h : Sound ⟨s, l ++ a :: r⟩) :
    ∀ b ∈ l ++ r, b.client ≠ a.client := by
  have hdistinct : ((l ++ a :: r).map Attendance.client).Nodup := h.distinct
  rw [List.map_append, List.map_cons, List.nodup_middle, ← List.map_append] at hdistinct
  intro b hb heq
  exact (List.nodup_cons.1 hdistinct).1 (heq ▸ List.mem_map_of_mem hb)

/-- The sessions of a list are the one in the middle and those on its two sides. -/
theorem mem_middle {a b : Attendance ε} : b ∈ l ++ a :: r ↔ b = a ∨ b ∈ l ++ r := by
  rw [List.mem_append, List.mem_cons, List.mem_append]
  exact or_left_comm

/-- A client that comes on a new channel and is given its verdict by `Server.enrol` leaves the
reception sound: the channel is no other client's, and those attended to keep their records. -/
theorem enrol (h : Sound ⟨s, l⟩) {id : String} {requests : Inlet ε} {responses sink : Sink}
    {line : String} {result : Except Error Bool}
    (henrol : (s.openChannel sink).2.enrol id requests responses line (s.openChannel sink).1 =
      (.settled result, now)) : Sound ⟨now, l⟩ := by
  have hopened : (s.openChannel sink).2.Sound := by
    refine h.server.of_engine h.server.table (fun _ _ hsub => hsub) fun j _ c _ hopen => ?_
    show ((s.engine.channels.open sink).2.sink? c.channel).isNone = false
    rw [Channels.sink?_open]
    split
    case isTrue => rfl
    case isFalse => exact hopen
  have hopen : (s.openChannel sink).2.engine.channels.isClosed (s.openChannel sink).1 = false := by
    show ((s.engine.channels.open sink).2.sink? s.engine.channels.sinks.length).isNone = false
    rw [Channels.sink?_open, if_pos rfl]
    rfl
  obtain ⟨hnow, hextends⟩ := hopened.enrol henrol hopen fun j hj c hc => by
    obtain ⟨record, hrecord, -, hchannel⟩ := h.server.present j hj
    cases hrecord.symm.trans hc
    exact Channels.ne_length_of_isClosed hchannel
  exact h.of_extends hnow hextends

/-- A session that is taken from the queue was that of a client present and waiting, and of no other
session; so with the client active and attended to the reception is sound. -/
theorem begin (h : Sound ⟨s, l⟩) {session : Session ε} {queue : Queue (Session ε)}
    (hpop : s.queue.pop? = some (some session, queue)) (requests : List (Received ε Request)) :
    Sound ⟨Server.setState { s with queue } session.client .active,
      ⟨session.client, session.line, session.responses, requests⟩ :: l⟩ := by
  obtain ⟨hfound, hslots⟩ := Queue.slot_of_pop? hpop
  have hwaits := h.server.waiting _ session (hfound session rfl)
  have hpopped := h.server.of_queue fun i other hi => (hslots i other hi).1
  have hactive := hpopped.activate hwaits fun i other hi heq =>
    (hslots i other hi).2 rfl
      (h.server.queued _ _ other session (hslots i other hi).1 (hfound session rfl) heq)
  have hothers : ∀ a ∈ l, a.client ≠ session.client := by
    intro a ha heq
    obtain ⟨c, hc, hstate⟩ := (h.served a ha).exists_record
    obtain ⟨c', hc', hstate'⟩ := hwaits.record?
    rw [heq] at hc
    cases hc.symm.trans hc'
    exact hstate hstate'
  refine ⟨hactive, List.nodup_cons.2 ⟨fun hmem => ?_, h.distinct⟩, fun a ha => ?_⟩
  · obtain ⟨a, ha, heq⟩ := List.mem_map.1 hmem
    exact hothers a ha heq
  · rcases List.mem_cons.1 ha with rfl | ha
    · obtain ⟨c, hc, -⟩ := hwaits.record?
      have hnow := Roster.stateOf_of_record? (Roster.record?_setState_self hc .active)
      exact .inl ⟨hwaits.1, hnow⟩
    · exact (h.served a ha).setState (hothers a ha) .active

/-- A client that is present and active has the state closed after `Server.release`. -/
theorem stateOf_release {client : ClientHandle} (hactive : s.roster.PresentAs client .active) :
    (s.release client).roster.stateOf client = some .closed := by
  obtain ⟨c, hc, hstate⟩ := hactive.record?
  rw [Server.release_of_not_closed hc (by rw [hstate]; nofun)]
  have hdetached : (s.roster.detach client).record? client = some c := hc
  exact Roster.stateOf_of_record? (Roster.record?_setState_self hdetached .closed)

/-- A session that is read on by one request (`Server.attend`) leaves the reception sound: its
client stays served, or is dropped and is read no more; the other sessions are those of other
clients. -/
theorem attend {client : ClientHandle} {line : String} {out out' : Sink}
    {received : Received ε Request} {rest : List (Received ε Request)}
    {ending : Option (Except Error SessionEnd)}
    (h : Sound ⟨s, l ++ ⟨client, line, out, received :: rest⟩ :: r⟩)
    (hattend : s.attend client line out received.result = (ending, out', now)) :
    Sound ⟨now, l ++ ⟨client, line, out', if ending.isSome then [] else rest⟩ :: r⟩ := by
  have hactive : s.roster.PresentAs client .active := by
    rcases h.served _ (mem_middle.2 (.inl rfl)) with hactive | ⟨hover, -⟩
    · exact hactive
    · cases hover
  obtain ⟨hnow, hroster⟩ := h.server.attend hactive hattend
  refine ⟨hnow, ?_, fun a ha => ?_⟩
  · have hdistinct := h.distinct
    simp only [List.map_append, List.map_cons] at hdistinct ⊢
    exact hdistinct
  · rcases mem_middle.1 ha with rfl | ha
    · rcases hroster with hsame | ⟨hover, hgone⟩
      · exact .inl (show now.roster.PresentAs client .active from hsame ▸ hactive)
      · refine .inr ⟨by simp [hover], ?_⟩
        rw [show now.roster = _ from hgone]
        exact stateOf_release hactive
    · have hserved := h.served a (mem_middle.2 (.inr ha))
      rcases hroster with hsame | ⟨-, hgone⟩
      · exact (show now.roster = s.roster from hsame) ▸ hserved
      · exact (show now.roster = _ from hgone) ▸ hserved.release (h.ne_client a ha)

/-- A session that is over may end by `Server.finish`, which drops its client unless that is done,
and leaves the reception sound: no other session is of the same client. -/
theorem finish {client : ClientHandle} {line : String} {out : Sink}
    (h : Sound ⟨s, l ++ ⟨client, line, out, []⟩ :: r⟩) :
    Sound ⟨s.finish client line out, l ++ r⟩ := by
  have hreleased : (s.release client).Sound := by
    rcases h.served _ (mem_middle.2 (.inl rfl)) with hactive | ⟨-, hclosed⟩
    · exact h.server.release hactive
    · obtain ⟨c, hc, hstate⟩ := Option.map_eq_some_iff.1 hclosed
      rw [Server.release_of_closed hc hstate]
      exact h.server
  refine ⟨hreleased.emitResponse line out _, ?_, fun a ha => ?_⟩
  · have hdistinct : ((l ++ ⟨client, line, out, []⟩ :: r).map Attendance.client).Nodup := h.distinct
    exact hdistinct.sublist (((List.sublist_cons_self _ r).append_left l).map Attendance.client)
  · exact (h.served a (mem_middle.2 (.inr ha))).release (h.ne_client a ha)

/-- Every `Move` keeps a reception sound: one case for each constructor. -/
theorem move {v w : Reception ε χ} (h : v.Sound) (hmove : Move v w) : w.Sound := by
  cases hmove with
  | enrol henrol => exact h.enrol henrol
  | begin hpop => exact h.begin hpop _
  | attend hattend => exact h.attend hattend
  | finish => exact h.finish
  | drained hpop =>
    have hslots := (Queue.slot_of_pop? hpop).2
    exact h.of_extends (h.server.of_queue fun i session hi => (hslots i session hi).1) (.refl _)
  | @entries s l op hop =>
    have hrun := Operation.table_run s.engine op
    refine h.of_extends (h.server.of_engine ?_ (fun key sub hsub => ?_)
      fun j _ c _ hopen => ?_) (.refl _)
    · exact hrun ▸ h.server.table.onTable op
    · exact Operation.mem_listOf_onTable hop (hrun ▸ hsub)
    · exact (Operation.isClosed_run hop s.engine c.channel).trans hopen
  | @close s l =>
    have hslots := Queue.slot_close s.queue
    exact h.of_extends (h.server.of_queue fun i _ hi => (hslots i).symm.trans hi) (.refl _)
  | @settle s l held hheld =>
    have htable := Engine.table_settle s.engine held
    refine h.of_extends (h.server.of_engine ?_ (fun key sub hsub => ?_)
      fun j hj c hc hopen => ?_) (.refl _)
    · exact htable.symm ▸ h.server.table
    · exact (show (s.engine.settle held).table = _ from htable) ▸ hsub
    · exact (congrArg Option.isNone (Engine.sink?_settle (hheld j hj c hc) s.engine)).trans hopen
  | @aside s now l htable hchannels hroster hqueue =>
    refine h.of_extends (h.server.mono ?_ (fun key sub hsub => ?_) (fun j _ c _ hopen => ?_) hroster
      fun i session hi => ?_) (hroster.symm ▸ .refl _)
    · exact htable.symm ▸ h.server.table
    · exact htable ▸ hsub
    · exact hchannels.symm ▸ hopen
    · exact hqueue ▸ hi

/-- What holds at first holds wherever moves lead (`Leads`): a sound reception leads to sound ones
only. -/
theorem leads {v w : Reception ε χ} (h : v.Sound) (hleads : Leads v w) : w.Sound := by
  induction hleads with
  | refl => exact h
  | tail _ hmove ih => exact ih.move hmove

end Sound

/-! ## Handling is made of moves -/

/-- Events that are moves, whatever sessions they happen within (`Leads`). -/
def Moving (act : ε → Server ε χ → Server ε χ) : Prop :=
  ∀ e s l, Leads ⟨s, l⟩ ⟨act e s, l⟩

variable {act : ε → Server ε χ → Server ε χ}

/-- To `react` to events that are moves is a row of moves. -/
theorem leads_react (hact : Moving act) (events : List ε) (s : Server ε χ)
    (l : List (Attendance ε)) : Leads ⟨s, l⟩ ⟨s.react act events, l⟩ := by
  unfold Server.react
  induction events generalizing s with
  | nil => exact .refl
  | cons e rest ih => exact (hact e s l).trans (ih (act e s))

/-- To serve all requests of a session by `Server.serveAll` is to let events happen and to read on,
in turns, and so a row of moves; by induction on the requests. -/
theorem leads_serveAll (hact : Moving act) (client : ClientHandle) (line : String)
    (requests : List (Received ε Request)) (out : Sink) (s : Server ε χ)
    (l : List (Attendance ε)) :
    Leads ⟨s, ⟨client, line, out, requests⟩ :: l⟩
      ⟨(Server.serveAll act client line requests out s).2.2,
        ⟨client, line, (Server.serveAll act client line requests out s).2.1, []⟩ :: l⟩ := by
  induction requests generalizing out s with
  | nil => exact .refl
  | cons received rest ih =>
    refine (leads_react hact received.events s _).trans ?_
    rw [Server.serveAll]
    generalize s.react act received.events = now
    cases hattend : now.attend client line out received.result with
    | mk ending after =>
      obtain ⟨out', after⟩ := after
      have hmove : Move ⟨now, [] ++ ⟨client, line, out, received :: rest⟩ :: l⟩
          ⟨after, [] ++ ⟨client, line, out', if ending.isSome then [] else rest⟩ :: l⟩ :=
        .attend hattend
      cases ending with
      | some result => exact .single hmove
      | none => exact .head hmove (ih out' after)

/-- To handle a session that is taken from the queue by `Server.handle` is to begin it, to serve it
and to end it, and so a row of moves. -/
theorem leads_handle (hact : Moving act) {s : Server ε χ} {session : Session ε}
    {queue : Queue (Session ε)} (hpop : s.queue.pop? = some (some session, queue))
    (l : List (Attendance ε)) :
    Leads ⟨s, l⟩ ⟨(Server.handle act session { s with queue }).2, l⟩ := by
  refine .head (.begin hpop) ?_
  refine (leads_serveAll hact session.client session.line _ session.responses _ l).tail ?_
  exact Move.finish (l := [])

/-- To serve the next session by `Server.serve?` is a row of moves (`leads_handle`). -/
theorem leads_serve? (hact : Moving act) {s now : Server ε χ}
    {result : Option (String × Except Error SessionEnd)} (h : s.serve? act = some (result, now))
    (l : List (Attendance ε)) : Leads ⟨s, l⟩ ⟨now, l⟩ := by
  obtain ⟨⟨found, queue⟩, hpop, hserved⟩ := Option.map_eq_some_iff.1 h
  cases found with
  | none =>
    cases hserved
    exact .single (.drained hpop)
  | some session =>
    cases hserved
    exact leads_handle hact hpop l

/-! ## Whose subscriptions there are -/

/-- Wherever moves lead from a server without clients and subscribers, the clients that are present
have distinct ids, wait or are served, and their channels are open. Every subscriber in any bucket
is a client that is present and served, on that client's own channel. And to serve the next session
by `Server.serve?`, with events that are moves, is moves again. -/
theorem served_of_leads {maxSessions : Nat} {e : Engine} {outside : χ} {v : Reception ε χ}
    (h : Leads ⟨Server.ofEngine maxSessions { e with table := .empty } outside, []⟩ v) :
    v.server.roster.ids.Nodup ∧
      (∀ j ∈ v.server.roster.present, ∃ record, v.server.roster.record? j = some record ∧
        (record.state = .registered ∨ record.state = .active) ∧
          v.server.engine.channels.isClosed record.channel = false) ∧
      (∀ i key, ∀ sub ∈ ((v.server.engine.table.bucket i).subscribersOf key).subscribers,
        ∃ j ∈ v.server.roster.present,
          v.server.roster.record? j = some ⟨sub.client, sub.channel, .active⟩) ∧
      ∀ act, Moving act → ∀ result now, v.server.serve? act = some (result, now) →
        Leads v ⟨now, v.attended⟩ := by
  have hstart : Sound (⟨Server.ofEngine maxSessions { e with table := .empty } outside, []⟩ :
      Reception ε χ) := ⟨.ofEngine maxSessions e outside, List.nodup_nil, nofun⟩
  have hsound := (hstart.leads h).server
  refine ⟨hsound.ids, fun j hj => ?_, fun i key sub hsub => ?_,
    fun act hact result now hserve => leads_serve? hact hserve v.attended⟩
  · obtain ⟨record, hrecord, hactive, hopen⟩ := hsound.present j hj
    refine ⟨record, hrecord, ?_, hopen⟩
    rw [ClientRecord.isActive, Bool.or_eq_true, beq_iff_eq, beq_iff_eq] at hactive
    exact hactive
  · by_cases hr : route key = some i
    · refine hsound.subscribers key sub ?_
      rw [Table.listOf_of_route hr]
      exact hsub
    · rw [(hsound.table.buckets i).subscribersOf_of_route_ne hr] at hsub
      cases hsub

/-- What a client asks for that watches a key and goes; before it goes the queue is closed
(`closing`). -/
def oneKey : Source Unit := [.bytes (0x33 :: 0x6b :: List.replicate 40 0), .event (), .bytes [0x32]]

/-- A server that has seen no client, with an empty queue (`served_of_leads`). -/
def idle : Server Unit Unit := .ofEngine 1 { Engine.ofFiles 1 .bare with table := .empty } ()

/-- The server `idle` when the client has come, which now waits in the queue. -/
def oneWaits : Server Unit Unit :=
  ((idle.openChannel {}).2.enrol "a" (.source oneKey) {} "a" 0).2

/-- The server `oneWaits` when another client of the id has come, with the first still in the queue,
which is full. -/
def oneRefused : Server Unit Unit :=
  ((oneWaits.openChannel {}).2.enrol "a" (.source oneKey) {} "b" 1).2

/-- The server `oneRefused` when it serves the client that waited. -/
def oneServed : Server Unit Unit :=
  Server.setState
    { oneRefused with queue := oneRefused.queue.pop?.elim oneRefused.queue Prod.snd } 0 .active

/-- The server `oneServed` when the client watches the key, with what the client asks for next. -/
def oneSubscribed : Reception Unit Unit where
  server := (oneServed.attend 0 "a" {} (.ok (some (.subscribe "k")))).2.2
  attended := [⟨0, "a", {}, (readAll Request.read oneKey).tail⟩]

/-- The event of the session `oneKey`: the queue is closed. -/
def closing (_ : Unit) (s : Server Unit Unit) : Server Unit Unit :=
  { s with queue := s.queue.close }

/-- A second client of the id is refused while the queue is full (`oneRefused`). Within the session
of the first, that client, which watches the key, is present and served, and the handling of the
whole session, in which the queue is closed, is made of moves. -/
theorem served_of_leads_oneSubscribed :
    (oneWaits.queue.isFull = true ∧
      (oneWaits.openChannel {}).2.enrol "a" (.source oneKey) {} "b" 1 =
        (.settled (.ok false), oneRefused)) ∧
      (oneSubscribed.server.engine.table.subscribersOf "k" = ["a"] ∧
        ∃ j ∈ oneSubscribed.server.roster.present,
          oneSubscribed.server.roster.record? j = some ⟨"a", 0, .active⟩) ∧
      ∃ now, oneRefused.serve? closing = some (some ("a", .ok .disconnected), now) ∧
        Leads ⟨oneRefused, []⟩ ⟨now, []⟩ := by
  have henrolled : Move ⟨idle, []⟩ ⟨oneWaits, []⟩ :=
    @Move.enrol Unit Unit idle oneWaits [] "a" (.source oneKey) {} {} "a" (.ok true) rfl
  have hrefused : Move ⟨oneWaits, []⟩ ⟨oneRefused, []⟩ :=
    @Move.enrol Unit Unit oneWaits oneRefused [] "a" (.source oneKey) {} {} "b" (.ok false) rfl
  have hbegin : Move ⟨oneRefused, []⟩ ⟨oneServed, [⟨0, "a", {}, readAll Request.read oneKey⟩]⟩ :=
    @Move.begin Unit Unit oneRefused [] ⟨0, .source oneKey, {}, "a"⟩ _ rfl
  have hattend : Move ⟨oneServed, [⟨0, "a", {}, readAll Request.read oneKey⟩]⟩ oneSubscribed :=
    @Move.attend Unit Unit oneServed oneSubscribed.server [] [] 0 "a" {} {}
      ⟨.ok (some (.subscribe "k")), [], oneKey.tail⟩ _ none rfl
  have hcome : Leads ⟨idle, []⟩ ⟨oneRefused, []⟩ := .tail (.single henrolled) hrefused
  obtain ⟨-, -, hsubscribers, -⟩ := served_of_leads (.tail (.tail hcome hbegin) hattend)
  obtain ⟨-, -, -, hserve⟩ := served_of_leads hcome
  refine ⟨⟨by decide +kernel, rfl⟩, ⟨by decide +kernel, ?_⟩, _, rfl, ?_⟩
  · exact hsubscribers ⟨10, by decide⟩ "k" ⟨"a", 0⟩ (by decide +kernel)
  · exact hserve closing (fun _ _ _ => .single .close) _ _ rfl

end Reception

end KeyWatch
