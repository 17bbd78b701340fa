import KeyWatch.Proofs.Queue.Backlog
import KeyWatch.Proofs.Session.Restore

/-!
# All or nothing

A client that comes is taken in, or else the server is as it was (`Server.enrol_allOrNothing`).
What the client is told does not depend on how far the server got (`Server.verdict`): it is taken in
if its id is free, it can be told so, and the queue takes its session. Only a client that would be
taken in may have to wait, for room in the queue; all others have their verdict at once.

There are four ways not to be taken in. What was done by then is undone, so that each of them leaves
nothing but the bytes that went to the client (`Server.Untouched`): a client that was made present
is made absent again (`Untouched.detach`), and a queue that hands a session back is as it was. On
three of them the channel of the client is closed. The fourth is that the id is taken and the client
cannot be told so, and then its channel stays as it was (`Server.enrol_leavesOpen`).
-/

namespace KeyWatch

/-- A queue with room takes an item in behind the others by `push?`, or hands it back if it is
closed. -/
theorem Queue.Holds.push?_of_room {α : Type} {q : Queue α} {b : Backlog α} (h : q.Holds b)
    (hroom : q.isFull = false) (x : α) :
    (q.isClosed = true ∧ q.push? x = some (.returned x, q)) ∨
      (q.isClosed = false ∧ ∃ after, q.push? x = some (.done, after) ∧
        after.Holds { b with items := b.items ++ [x] }) := by
  cases hclosed : q.isClosed with
  | true => exact .inl ⟨rfl, h.push?_closed hclosed x⟩
  | false =>
    have hplace : b.items.length ≠ b.bound := by
      intro hfull
      rw [isFull, hclosed, h.size, h.capacity, hfull, beq_self_eq_true] at hroom
      cases hroom
    exact .inr ⟨rfl, h.push (h.closed.symm.trans hclosed) (Nat.lt_of_le_of_ne h.fits hplace)⟩

namespace Roster

variable {r : Roster}

/-- The clients that are present have records (`Roster.records`). -/
def Recorded (r : Roster) : Prop := ∀ h ∈ r.present, h < r.records.length

instance (r : Roster) : Decidable r.Recorded :=
  inferInstanceAs (Decidable (∀ h ∈ r.present, h < r.records.length))

/-- A record that `add` makes for a new client makes nobody present. -/
theorem contains_add (hr : r.Recorded) (id other : String) (channel : ChannelId) :
    (r.add id channel).2.contains other = r.contains other := by
  have hsame : ∀ h ∈ r.present, (r.add id channel).2.hasId other h = r.hasId other h := by
    intro h hh
    rw [hasId, record?_add, if_neg (Nat.ne_of_lt (hr h hh)), hasId]
  rw [contains, contains, find?, find?, Bool.eq_iff_iff, List.find?_isSome, List.find?_isSome]
  constructor
  · rintro ⟨h, hh, hid⟩
    exact ⟨h, hh, (hsame h hh).symm.trans hid⟩
  · rintro ⟨h, hh, hid⟩
    exact ⟨h, hh, (hsame h hh).trans hid⟩

/-- A record that `add` makes for a new client leaves those that are there. -/
theorem record?_add_of_some {h : ClientHandle} {c : ClientRecord} (hc : r.record? h = some c)
    (id : String) (channel : ChannelId) : (r.add id channel).2.record? h = some c :=
  (record?_add r id channel h).trans ((if_neg (ne_length_of_record? hc)).trans hc)

/-- A new client is made present by `insert` just if its id is free. -/
theorem insert_add (hr : r.Recorded) (id : String) (channel : ChannelId) :
    (r.add id channel).2.insert r.records.length =
      if r.contains id then (false, (r.add id channel).2)
      else (true, { (r.add id channel).2 with present := r.present ++ [r.records.length] }) := by
  have hnew := (record?_add r id channel r.records.length).trans (if_pos rfl)
  rw [insert, idOf_of_record? hnew, contains_add hr]
  rfl

end Roster

namespace Server

variable {ε χ : Type} {s now : Server ε χ} {channel : ChannelId}

/-- What a client that comes is told: whether it is taken in, or else the error that kept it from
being told. It is stated from the server alone, and not from how far `Server.enrol` got. -/
def verdict (s : Server ε χ) (id : String) (responses : Sink) : Except Error Bool :=
  let greeting : Response := ⟨.connect, if s.roster.contains id then .failed else .ok⟩
  match (greeting.write responses).error with
  | some e => .error e
  | none => .ok (!s.roster.contains id && !s.queue.isClosed)

/-- A server whose clients, table and queue are as they were, and so are its channels but for one.
Nothing happened to it but that bytes left (`Server.Beside`). -/
structure Untouched (channel : ChannelId) (s now : Server ε χ) : Prop where
  present : now.roster.present = s.roster.present
  records : ∀ h c, s.roster.record? h = some c → now.roster.record? h = some c
  table : now.engine.table = s.engine.table
  channels : ∀ id, id ≠ channel → now.engine.channels.sink? id = s.engine.channels.sink? id
  beside : s.Beside channel now

namespace Untouched

/-- A server that does not change is `Untouched`. -/
theorem refl (channel : ChannelId) (s : Server ε χ) : s.Untouched channel s :=
  ⟨rfl, fun _ _ hc => hc, rfl, fun _ _ => rfl, .refl _ _, rfl, rfl, rfl⟩

/-- What is written on a response line by `emitResponse` leaves a server `Untouched`. -/
theorem emitResponse (h : s.Untouched channel now) (line : String) (out : Sink)
    (emitted : Option Bytes) : s.Untouched channel (now.emitResponse line out emitted) where
  present := h.present
  records := h.records
  table := (table_emitResponse now line out emitted).trans h.table
  channels id hid := by rw [channels_emitResponse]; exact h.channels id hid
  beside := h.beside.trans_engine (.emitAll _ _ _)

/-- To close the one channel by `closeChannel` leaves a server `Untouched`. -/
theorem closeChannel (h : s.Untouched channel now) :
    s.Untouched channel (now.closeChannel channel) where
  present := h.present
  records := h.records
  table := (Engine.table_closeChannel now.engine channel).trans h.table
  channels id hid := by
    rw [Server.closeChannel, Engine.channels_closeChannel, Channels.sink?_close, if_neg hid]
    exact h.channels id hid
  beside := h.beside.trans_engine (.closeChannel _ _ _)

/-- A new client that is made present by `insert` and absent again by `detach` is not there, so the
server is `Untouched`. -/
theorem detach (hr : s.roster.Recorded) (id : String) :
    s.Untouched channel { s with
      roster := Roster.detach { (s.roster.add id channel).2 with
        present := s.roster.present ++ [s.roster.records.length] } s.roster.records.length } where
  present := by
    have hold : s.roster.present.filter (· != s.roster.records.length) = s.roster.present :=
      List.filter_eq_self.2 fun h hh => bne_iff_ne.2 (Nat.ne_of_lt (hr h hh))
    show (s.roster.present ++ [s.roster.records.length]).filter (· != s.roster.records.length) = _
    rw [List.filter_append, hold, List.filter_cons_of_neg (by simp), List.filter_nil,
      List.append_nil]
  records _ _ hc := Roster.record?_add_of_some hc id channel
  table := rfl
  channels _ _ := rfl
  beside := ⟨.refl _ _, rfl, rfl, rfl⟩

end Untouched

/-- A channel that was closed by `closeChannel` has no sink any more. -/
theorem sink?_closeChannel (s : Server ε χ) (channel : ChannelId) :
    (s.closeChannel channel).engine.channels.sink? channel = none := by
  rw [closeChannel, Engine.channels_closeChannel, Channels.sink?_close, if_pos rfl]

/-- A server that has taken a client in: the client is the last of those present and waits to be
served, its session is the last in the queue, and its channel is as it was (`Untouched` is the other
outcome). -/
structure TookIn (id : String) (channel : ChannelId) (held : Backlog (Session ε))
    (requests : Inlet ε) (line : String) (s now : Server ε χ) : Prop where
  present : now.roster.present = s.roster.present ++ [s.roster.records.length]
  record : now.roster.record? s.roster.records.length = some ⟨id, channel, .registered⟩
  records : ∀ h c, s.roster.record? h = some c → now.roster.record? h = some c
  queue : ∃ out, now.queue.Holds
    { held with items := held.items ++ [⟨s.roster.records.length, requests, out, line⟩] }
  table : now.engine.table = s.engine.table
  channels : now.engine.channels = s.engine.channels

/-- A client whose id is taken is refused by `Server.enrol` at once, be the queue full or not. Its
channel is closed if it could be told so. -/
theorem enrol_of_taken {id : String} (hr : s.roster.Recorded)
    (htaken : s.roster.contains id = true) (requests : Inlet ε) (responses : Sink) (line : String)
    (channel : ChannelId) :
    ∃ now, s.enrol id requests responses line channel =
        (.settled (s.verdict id responses), now) ∧
      s.verdict id responses ≠ .ok true ∧ s.Untouched channel now ∧
      now.engine.channels.sink? channel =
        if (s.verdict id responses).isOk then none else s.engine.channels.sink? channel := by
  have hinsert := Roster.insert_add hr id channel
  rw [if_pos htaken] at hinsert
  have hadd : (s.roster.add id channel).1 = s.roster.records.length := rfl
  simp only [enrol, hadd, hinsert, verdict, htaken, if_true, reply]
  generalize hsending : Response.write ⟨.connect, .failed⟩ responses = sending
  obtain ⟨error, emitted, out⟩ := sending
  have hanswered := (Untouched.refl channel s).emitResponse line responses emitted
  cases error with
  | some e =>
    refine ⟨_, rfl, ?_, hanswered.emitResponse line out _, ?_⟩
    · intro htrue
      cases htrue
    · rw [hangUp, channels_emitResponse, channels_emitResponse]
      rfl
  | none =>
    refine ⟨_, rfl, ?_, hanswered.closeChannel.emitResponse line out _, ?_⟩
    · intro htrue
      cases htrue
    · rw [hangUp, channels_emitResponse, sink?_closeChannel]
      rfl

/-- A client whose id is free is taken in by `Server.enrol`, or else its channel is closed. There
has to be room in the queue only for a client that gets as far as to be queued. -/
theorem enrol_of_free {id : String} {held : Backlog (Session ε)} (hr : s.roster.Recorded)
    (hholds : s.queue.Holds held) (hfree : s.roster.contains id = false) {responses : Sink}
    (hroom : s.verdict id responses = .ok true → s.queue.isFull = false) (requests : Inlet ε)
    (line : String) (channel : ChannelId) :
    ∃ now, s.enrol id requests responses line channel =
        (.settled (s.verdict id responses), now) ∧
      (s.verdict id responses = .ok true → TookIn id channel held requests line s now) ∧
      (s.verdict id responses ≠ .ok true →
        s.Untouched channel now ∧ now.engine.channels.sink? channel = none) := by
  have hinsert := Roster.insert_add hr id channel
  rw [if_neg (Bool.eq_false_iff.1 hfree)] at hinsert
  have hadd : (s.roster.add id channel).1 = s.roster.records.length := rfl
  have hgone : s.Untouched channel _ := Untouched.detach hr id
  simp only [verdict, hfree, Bool.false_eq_true, if_false, Bool.not_false, Bool.true_and] at hroom
  simp only [enrol, hadd, hinsert, verdict, hfree, reply, Bool.false_eq_true, if_false,
    Bool.not_false, Bool.true_and]
  generalize Response.write ⟨.connect, .ok⟩ responses = sending at hroom ⊢
  obtain ⟨error, emitted, out⟩ := sending
  -- whoever was present for a while and is absent again: the bytes leave as if it never had been
  have hanswered := hgone.emitResponse line responses emitted
  cases error with
  | some e =>
    refine ⟨_, rfl, ?_, fun _ => ⟨hanswered.closeChannel.emitResponse line out _, ?_⟩⟩
    · intro htrue
      cases htrue
    · rw [hangUp, channels_emitResponse]
      exact sink?_closeChannel _ channel
  | none =>
    have hplace : s.queue.isFull = false := by
      cases hclosed : s.queue.isClosed with
      | true => rw [Queue.isFull, hclosed]; rfl
      | false => exact hroom (by rw [hclosed]; rfl)
    simp only [enqueue, queue_emitResponse]
    rcases hholds.push?_of_room hplace ⟨s.roster.records.length, requests, out, line⟩ with
      ⟨hclosed, hpush⟩ | ⟨hopen, queue, hpush, hqueue⟩
    · simp only [hpush, hclosed]
      refine ⟨_, rfl, ?_, fun _ => ⟨(hanswered.emitResponse line out _).closeChannel, ?_⟩⟩
      · intro htrue
        cases htrue
      · exact sink?_closeChannel _ channel
    · simp only [hpush, hopen]
      refine ⟨_, rfl, fun _ => ⟨rfl, ?_, fun h c hc => ?_, ⟨out, hqueue⟩, ?_, ?_⟩,
        fun hrefused => absurd rfl hrefused⟩
      · exact (Roster.record?_add s.roster id channel _).trans (if_pos rfl)
      · exact Roster.record?_add_of_some hc id channel
      · exact table_emitResponse _ line responses emitted
      · exact channels_emitResponse _ line responses emitted

/-- A client that comes is given its verdict (`Server.verdict`), unless it would be taken in and has
to wait for room in the queue. If it is taken in, it is made present and its session is queued. If
it is not, for whatever reason, the clients, the queue, the table and all other channels are as they
were, and its own channel is closed; but where its id is taken and it cannot be told so, its own
channel is as it was too. -/
theorem enrol_allOrNothing {held : Backlog (Session ε)} (hr : s.roster.Recorded)
    (hholds : s.queue.Holds held) (id : String) (requests : Inlet ε) (responses : Sink)
    (hroom : s.verdict id responses = .ok true → s.queue.isFull = false) (line : String)
    (channel : ChannelId) :
    ∃ now, s.enrol id requests responses line channel =
        (.settled (s.verdict id responses), now) ∧
      (s.verdict id responses = .ok true → TookIn id channel held requests line s now) ∧
      (s.verdict id responses ≠ .ok true →
        s.Untouched channel now ∧
          now.engine.channels.sink? channel =
            if s.roster.contains id && !(s.verdict id responses).isOk then
              s.engine.channels.sink? channel
            else none) := by
  cases hid : s.roster.contains id with
  | true =>
    obtain ⟨now, henrol, hrefused, huntouched, hsink⟩ :=
      enrol_of_taken hr hid requests responses line channel
    refine ⟨now, henrol, fun htaken => absurd htaken hrefused, fun _ => ⟨huntouched, ?_⟩⟩
    rw [hsink]
    cases (s.verdict id responses).isOk with
    | true => rfl
    | false => rfl
  | false =>
    obtain ⟨now, henrol, htaken, hrefused⟩ :=
      enrol_of_free hr hholds hid hroom requests line channel
    exact ⟨now, henrol, htaken, hrefused⟩

/-- A server with a client, and a channel for the next (`enrol_allOrNothing`). -/
def oneIn : Server Empty Unit where
  engine := Operation.runAll [.openChannel {}, .openChannel {}] (.ofFiles 1 .bare)
  roster := ⟨[⟨"a", 0, .active⟩], [0]⟩
  queue := .empty 1
  stopping := false
  outside := ()

/-- A line that takes nothing: the first write to it fails (`Sink`). -/
def brokenLine : Sink := { script := [.fail ⟨.brokenPipe, "broken"⟩] }

/-- A client of a new id that `oneIn` cannot tell that it is taken in is not there, and its channel
is closed. -/
theorem enrol_allOrNothing_notTold :
    ∃ now, oneIn.enrol "b" (.source []) brokenLine "b" 1 =
        (.settled (.error (.ofIo ⟨.brokenPipe, "broken"⟩ "response")), now) ∧
      now.roster.present = [0] ∧ now.queue = oneIn.queue ∧
      now.engine.channels.isClosed 1 = true := by
  have hverdict : oneIn.verdict "b" brokenLine =
      .error (.ofIo ⟨.brokenPipe, "broken"⟩ "response") := by decide +kernel
  have hfree : oneIn.roster.contains "b" = false := by decide +kernel
  obtain ⟨now, henrol, -, hrefused⟩ := enrol_allOrNothing (s := oneIn) (by decide) (.empty 1)
    "b" (.source []) brokenLine (fun _ => rfl) "b" 1
  rw [hverdict] at henrol hrefused
  obtain ⟨huntouched, hsink⟩ := hrefused nofun
  rw [hfree] at hsink
  exact ⟨now, henrol, huntouched.present, huntouched.beside.queue, by
    rw [Channels.isClosed, hsink]; rfl⟩

/-- A client whose id is taken on `oneIn` and that cannot be told so keeps an open channel. -/
theorem enrol_leavesOpen :
    ∃ now, oneIn.enrol "a" (.source []) brokenLine "b" 1 =
        (.settled (.error (.ofIo ⟨.brokenPipe, "broken"⟩ "response")), now) ∧
      now.engine.channels.isClosed 1 = false := by
  refine ⟨_, rfl, ?_⟩
  decide +kernel

end Server

end KeyWatch
