import Mathlib.Data.List.Nodup
import KeyWatch.Proofs.Table.Consistent
import KeyWatch.Session.Serve

/-!
# Clients, subscribers and sessions in step

A server is sound (`Server.Sound`) if the clients that are present have distinct ids and distinct
open channels and wait or are served, every subscriber is a client that is present and served, on
its own channel, and every session in the queue is that of a client that is present and waits, and
of no other session's.

Each thing that a server does to a client keeps it sound: to make it present (`Sound.enter`), to
queue its session (`Sound.push`), to begin to serve it (`Sound.activate`), to subscribe it
(`Sound.subscribe`), and to drop it (`Sound.dismiss`, `Sound.release`). What is not about a client
keeps it sound if it subscribes nobody and leaves the channels of those who are present open
(`Sound.mono`).
-/

namespace KeyWatch.Server

variable {ε χ : Type}

/-- A server whose clients, subscribers, channels and queued sessions go together: those who are
present have distinct ids and distinct open channels, every subscriber is one of them and is served
on its own channel, and every session in the queue is that of one who waits. -/
structure Sound (s : Server ε χ) : Prop where
  table : s.engine.table.Consistent
  ids : s.roster.ids.Nodup
  present : ∀ h ∈ s.roster.present, ∃ record, s.roster.record? h = some record ∧
    record.isActive = true ∧ s.engine.channels.isClosed record.channel = false
  channels : ∀ h ∈ s.roster.present, ∀ j ∈ s.roster.present, ∀ record other,
    s.roster.record? h = some record → s.roster.record? j = some other →
      record.channel = other.channel → h = j
  subscribers : ∀ key, ∀ sub ∈ (s.engine.table.listOf key).subscribers,
    ∃ h ∈ s.roster.present, s.roster.record? h = some ⟨sub.client, sub.channel, .active⟩
  waiting : ∀ i session, s.queue.ring.slot i = some session →
    s.roster.PresentAs session.client .registered
  queued : ∀ i j session other, s.queue.ring.slot i = some session →
    s.queue.ring.slot j = some other → session.client = other.client → i = j

/-- A client that has just been made present: it waits under an id and on a channel, nobody is
subscribed under the id, and no session in the queue is the client's (`Sound.newcomer`). -/
structure Newcomer (client : ClientHandle) (id : String) (channel : ChannelId) (s : Server ε χ) :
    Prop where
  present : client ∈ s.roster.present
  record : s.roster.record? client = some ⟨id, channel, .registered⟩
  free : ∀ key, ∀ sub ∈ (s.engine.table.listOf key).subscribers, sub.client ≠ id
  unqueued : ∀ i session, s.queue.ring.slot i = some session → session.client ≠ client

/-- What is written on a response line by `emitResponse` makes nobody subscribe and queues no
session, so a newcomer stays one. -/
theorem Newcomer.emitResponse {client : ClientHandle} {id : String} {channel : ChannelId}
    {s : Server ε χ} (h : Newcomer client id channel s) (line : String) (out : Sink)
    (emitted : Option Bytes) : Newcomer client id channel (s.emitResponse line out emitted) where
  present := h.present
  record := h.record
  free := by
    rw [table_emitResponse]
    exact h.free
  unqueued := h.unqueued

namespace Sound

variable {s now : Server ε χ} {client : ClientHandle} {record : ClientRecord}

/-- A server without clients and subscribers (`Server.ofEngine`) is sound. -/
theorem ofEngine (maxSessions : Nat) (e : Engine) (outside : χ) :
    Sound (Server.ofEngine maxSessions { e with table := .empty } outside : Server ε χ) where
  table := .empty
  ids := List.nodup_nil
  present := nofun
  channels := nofun
  subscribers key sub hsub := by
    replace hsub : sub ∈ (Table.empty.listOf key).subscribers := hsub
    rw [Table.listOf_empty] at hsub
    cases hsub
  waiting i session h := by
    have hnone := Ring.slot_empty (α := Session ε) (max maxSessions 1) i
    rw [show (Ring.empty _).slot i = some session from h] at hnone
    cases hnone
  queued i j session other h := by
    have hnone := Ring.slot_empty (α := Session ε) (max maxSessions 1) i
    rw [show (Ring.empty _).slot i = some session from h] at hnone
    cases hnone

/-- What subscribes nobody, leaves the channels of the clients present open and queues no session
keeps a server sound; of the table it has to be shown only that it is consistent. -/
theorem mono (h : s.Sound) (htable : now.engine.table.Consistent)
    (hlists : ∀ key, ∀ sub ∈ (now.engine.table.listOf key).subscribers,
      sub ∈ (s.engine.table.listOf key).subscribers)
    (hopen : ∀ j ∈ s.roster.present, ∀ record, s.roster.record? j = some record →
      s.engine.channels.isClosed record.channel = false →
        now.engine.channels.isClosed record.channel = false)
    (hroster : now.roster = s.roster)
    (hslots : ∀ i session, now.queue.ring.slot i = some session →
      s.queue.ring.slot i = some session) : now.Sound where
  table := htable
  ids := by rw [hroster]; exact h.ids
  present j hj := by
    rw [hroster] at hj ⊢
    obtain ⟨record, hrecord, hactive, hchannel⟩ := h.present j hj
    exact ⟨record, hrecord, hactive, hopen j hj record hrecord hchannel⟩
  channels := by rw [hroster]; exact h.channels
  subscribers key sub hsub := by
    rw [hroster]
    exact h.subscribers key sub (hlists key sub hsub)
  waiting i session hi := by
    rw [hroster]
    exact h.waiting i session (hslots i session hi)
  queued i j session other hi hj :=
    h.queued i j session other (hslots i session hi) (hslots j other hj)

/-- A change of the store that subscribes nobody and leaves the channels of the clients present open
keeps the server sound (`Sound.mono`). -/
theorem of_engine (h : s.Sound) {e : Engine} (htable : e.table.Consistent)
    (hlists : ∀ key, ∀ sub ∈ (e.table.listOf key).subscribers,
      sub ∈ (s.engine.table.listOf key).subscribers)
    (hopen : ∀ j ∈ s.roster.present, ∀ record, s.roster.record? j = some record →
      s.engine.channels.isClosed record.channel = false →
        e.channels.isClosed record.channel = false) : Sound { s with engine := e } :=
  h.mono htable hlists hopen rfl fun _ _ hi => hi

/-- A change of the queue that queues no session keeps the server sound (`Sound.mono`). -/
theorem of_queue (h : s.Sound) {queue : Queue (Session ε)}
    (hslots : ∀ i session, queue.ring.slot i = some session →
      s.queue.ring.slot i = some session) : Sound { s with queue } :=
  h.mono h.table (fun _ _ hsub => hsub) (fun _ _ _ _ hopen => hopen) rfl hslots

/-- What is written on a response line by `emitResponse` keeps the server sound. -/
theorem emitResponse (h : s.Sound) (line : String) (out : Sink) (emitted : Option Bytes) :
    (s.emitResponse line out emitted).Sound := by
  have htable := table_emitResponse s line out emitted
  have hchannels := channels_emitResponse s line out emitted
  refine h.of_engine (htable.symm ▸ h.table) (fun key sub hsub => ?_) fun _ _ _ _ hopen => ?_
  · exact htable ▸ hsub
  · exact hchannels.symm ▸ hopen

/-- A client that is absent may change its state by `Server.setState`, and the server stays
sound. -/
theorem setState_of_absent (h : s.Sound) (habsent : client ∉ s.roster.present)
    (state : ClientState) : (s.setState client state).Sound := by
  have hsame : ∀ j ∈ s.roster.present,
      (s.roster.setState client state).record? j = s.roster.record? j := by
    intro j hj
    refine Roster.record?_setState_of_ne ?_ state
    rintro rfl
    exact habsent hj
  refine ⟨h.table, ?_, fun j hj => ?_, fun j hj k hk record other hrecord hother => ?_,
    fun key sub hsub => ?_, fun i session hi => ?_, h.queued⟩
  · exact (Roster.ids_setState s.roster client state).symm ▸ h.ids
  · obtain ⟨record, hrecord, hrest⟩ := h.present j hj
    exact ⟨record, (hsame j hj).trans hrecord, hrest⟩
  · exact h.channels j hj k hk record other ((hsame j hj).symm.trans hrecord)
      ((hsame k hk).symm.trans hother)
  · obtain ⟨j, hj, hrecord⟩ := h.subscribers key sub hsub
    exact ⟨j, hj, (hsame j hj).trans hrecord⟩
  · obtain ⟨hj, hstate⟩ := h.waiting i session hi
    exact ⟨hj, (congrArg (Option.map ClientRecord.state) (hsame _ hj)).trans hstate⟩

/-- A client that waits and whose session has left the queue may become active, and the server stays
sound: no session in the queue is the client's any more. -/
theorem activate (h : s.Sound) (hwaits : s.roster.PresentAs client .registered)
    (hpopped : ∀ i session, s.queue.ring.slot i = some session → session.client ≠ client) :
    (s.setState client .active).Sound := by
  obtain ⟨record, hrecord, hstate⟩ := hwaits.record?
  have hother : ∀ j, j ≠ client →
      (s.roster.setState client .active).record? j = s.roster.record? j :=
    fun j hj => Roster.record?_setState_of_ne hj .active
  have hnow := Roster.record?_setState_self hrecord .active
  have hchannel : ∀ j c, (s.roster.setState client .active).record? j = some c →
      ∃ before, s.roster.record? j = some before ∧ before.channel = c.channel := by
    intro j c hc
    by_cases hj : j = client
    · subst hj
      cases hnow.symm.trans hc
      exact ⟨record, hrecord, rfl⟩
    · exact ⟨c, (hother j hj).symm.trans hc, rfl⟩
  refine ⟨h.table, ?_, fun j hj => ?_, fun j hj k hk first second hfirst hsecond heq => ?_,
    fun key sub hsub => ?_, fun i session hi => ?_, h.queued⟩
  · exact (Roster.ids_setState s.roster client .active).symm ▸ h.ids
  · obtain ⟨c, hc, hactive, hopen⟩ := h.present j hj
    by_cases hjc : j = client
    · subst hjc
      cases hrecord.symm.trans hc
      exact ⟨_, hnow, rfl, hopen⟩
    · exact ⟨c, (hother j hjc).trans hc, hactive, hopen⟩
  · obtain ⟨before, hbefore, hsame⟩ := hchannel j first hfirst
    obtain ⟨before', hbefore', hsame'⟩ := hchannel k second hsecond
    exact h.channels j hj k hk before before' hbefore hbefore' (by rw [hsame, hsame', heq])
  · obtain ⟨j, hj, hc⟩ := h.subscribers key sub hsub
    have hjc : j ≠ client := by
      rintro rfl
      cases hrecord.symm.trans hc
      cases hstate
    exact ⟨j, hj, (hother j hjc).trans hc⟩
  · obtain ⟨hj, hregistered⟩ := h.waiting i session hi
    refine ⟨hj, ?_⟩
    exact (congrArg (Option.map ClientRecord.state) (hother _ (hpopped i session hi))).trans
      hregistered

/-- A client that is present, has no subscriptions and has no session in the queue may be made
absent and its channel closed (`Server.dismiss`): the server stays sound. -/
theorem dismiss (h : s.Sound) (hclient : client ∈ s.roster.present)
    (hrecord : s.roster.record? client = some record)
    (hfree : ∀ key, ∀ sub ∈ (s.engine.table.listOf key).subscribers, sub.client ≠ record.id)
    (hpopped : ∀ i session, s.queue.ring.slot i = some session → session.client ≠ client) :
    (s.dismiss client record.channel).Sound := by
  have hpresent : ∀ j, j ∈ (s.roster.detach client).present ↔ j ∈ s.roster.present ∧ j ≠ client :=
    fun j => Roster.mem_present_detach
  refine ⟨?_, ?_, fun j hj => ?_, fun j hj k hk => ?_, fun key sub hsub => ?_,
    fun i session hi => ?_, h.queued⟩
  · simp only [Server.dismiss, Server.closeChannel, Engine.table_closeChannel]
    exact h.table
  · exact h.ids.sublist (List.filter_sublist.map s.roster.idOf)
  · obtain ⟨hj, hne⟩ := (hpresent j).1 hj
    obtain ⟨c, hc, hactive, hopen⟩ := h.present j hj
    refine ⟨c, hc, hactive, ?_⟩
    have hdistinct : c.channel ≠ record.channel :=
      fun heq => hne (h.channels j hj client hclient c record hc hrecord heq)
    simp only [Server.dismiss, Server.closeChannel, Engine.channels_closeChannel,
      Channels.isClosed, Channels.sink?_close, if_neg hdistinct]
    exact hopen
  · exact h.channels j ((hpresent j).1 hj).1 k ((hpresent k).1 hk).1
  · simp only [Server.dismiss, Server.closeChannel, Engine.table_closeChannel] at hsub
    obtain ⟨j, hj, hc⟩ := h.subscribers key sub hsub
    have hne : j ≠ client := by
      rintro rfl
      cases hrecord.symm.trans hc
      exact hfree key sub hsub rfl
    exact ⟨j, (hpresent j).2 ⟨hj, hne⟩, hc⟩
  · obtain ⟨hj, hregistered⟩ := h.waiting i session hi
    exact ⟨(hpresent _).2 ⟨hj, hpopped i session hi⟩, hregistered⟩

/-- All subscriptions of a client may end by `Engine.removeAll`: the server stays sound, and no
subscriber is left under the id. -/
theorem removeAll (h : s.Sound) (id : String) :
    Sound { s with engine := (s.engine.removeAll id).2 } ∧
      ∀ key, ∀ sub ∈ ((s.engine.removeAll id).2.table.listOf key).subscribers, sub.client ≠ id := by
  have hmem : ∀ key, ∀ sub ∈ ((s.engine.removeAll id).2.table.listOf key).subscribers,
      sub ∈ (s.engine.table.listOf key).subscribers ∧ sub.client ≠ id := by
    intro key sub hsub
    rw [Engine.table_removeAll, Table.listOf_removeAll h.table] at hsub
    obtain ⟨hbefore, hne⟩ := List.mem_filter.1 hsub
    exact ⟨hbefore, bne_iff_ne.1 hne⟩
  refine ⟨h.of_engine (h.table.removeAll id) (fun key sub hsub => (hmem key sub hsub).1) ?_,
    fun key sub hsub => (hmem key sub hsub).2⟩
  exact fun _ _ _ _ hopen => hopen

/-- A client that is served may be dropped by `Server.release`: its subscriptions end before its
channel is closed, so the server stays sound. -/
theorem release (h : s.Sound) (hactive : s.roster.PresentAs client .active) :
    (s.release client).Sound := by
  obtain ⟨record, hrecord, hstate⟩ := hactive.record?
  have hpopped : ∀ i session, s.queue.ring.slot i = some session → session.client ≠ client := by
    rintro i session hi rfl
    cases hactive.2.symm.trans (h.waiting i session hi).2
  obtain ⟨hremoved, hfree⟩ := h.removeAll record.id
  have hdismissed := hremoved.dismiss hactive.1 hrecord hfree hpopped
  rw [release_of_not_closed hrecord (by rw [hstate]; nofun)]
  have habsent : client ∉ (s.roster.detach client).present :=
    fun hmem => (Roster.mem_present_detach.1 hmem).2 rfl
  exact hdismissed.setState_of_absent habsent .closed

/-- A client that is served may subscribe to a key on its own channel by `Engine.subscribe`: the new
subscriber is present and served, so the server stays sound. -/
theorem subscribe (h : s.Sound) (hactive : s.roster.PresentAs client .active)
    (hrecord : s.roster.record? client = some record) {key : String} {outcome : SubscribeOutcome}
    {e : Engine} (hs : s.engine.subscribe key record.id record.channel = .ok (outcome, e)) :
    Sound { s with engine := e } := by
  obtain ⟨table, ht, rfl⟩ := Engine.subscribe_eq_ok hs
  refine ⟨h.table.subscribe ht, h.ids, h.present, h.channels, fun k sub hsub => ?_, h.waiting,
    h.queued⟩
  replace hsub : sub ∈ (table.listOf k).subscribers := hsub
  rw [Table.listOf_of_subscribe ht] at hsub
  split at hsub
  case isFalse => exact h.subscribers k sub hsub
  case isTrue =>
    rcases SubscriberList.mem_add hsub with rfl | hbefore
    · refine ⟨client, hactive.1, hrecord.trans ?_⟩
      have hstate : record.state = .active :=
        Option.some.inj ((Roster.stateOf_of_record? hrecord).symm.trans hactive.2)
      rw [← hstate]
    · exact h.subscribers key sub hbefore

/-- A client may end a subscription by `Engine.unsubscribe`: no subscriber is new, so the server
stays sound. -/
theorem unsubscribe (h : s.Sound) (key id : String) :
    Sound { s with engine := (s.engine.unsubscribe key id).2 } := by
  refine h.of_engine (h.table.unsubscribe key id) (fun k sub hsub => ?_)
    fun _ _ _ _ hopen => hopen
  · rw [Engine.table_unsubscribe, Table.listOf_unsubscribe] at hsub
    split at hsub
    case isFalse => exact hsub
    case isTrue hk =>
      rw [hk]
      exact (List.mem_filter.1 hsub).1

/-! ## Taking a client in -/

/-- A channel that is no client's may be closed by `Server.closeChannel`, and the server stays
sound. -/
theorem closeChannel (h : s.Sound) {channel : ChannelId}
    (hfresh : ∀ j ∈ s.roster.present, ∀ c, s.roster.record? j = some c → c.channel ≠ channel) :
    (s.closeChannel channel).Sound := by
  have htable := Engine.table_closeChannel s.engine channel
  refine h.of_engine (htable.symm ▸ h.table) (fun key sub hsub => htable ▸ hsub)
    fun j hj c hc hopen => ?_
  rw [Engine.channels_closeChannel, Channels.isClosed, Channels.sink?_close,
    if_neg (hfresh j hj c hc)]
  exact hopen

/-- A client that `Roster.insert` made present is a newcomer (`Server.Newcomer`) to a sound server:
its record is new, so no subscriber and no session in the queue can be its own. -/
theorem newcomer (h : s.Sound) {id : String} {channel : ChannelId} {roster : Roster}
    (hinsert : (s.roster.add id channel).2.insert s.roster.records.length = (true, roster)) :
    Newcomer s.roster.records.length id channel { s with roster } := by
  have hextends := Roster.extends_insert hinsert
  obtain ⟨rfl, hids⟩ := Roster.of_insert hinsert
  have hnew : (s.roster.add id channel).2.record? s.roster.records.length =
      some ⟨id, channel, .registered⟩ :=
    (Roster.record?_add s.roster id channel _).trans (if_pos rfl)
  refine ⟨List.mem_append_right _ (List.mem_singleton.2 rfl), hnew, fun key sub hsub => ?_,
    fun i session hi => ?_⟩
  · obtain ⟨j, hj, hc⟩ := h.subscribers key sub hsub
    have hne := hids j hj _ (((hextends j (Roster.ne_length_of_record? hc)).1).trans hc)
    rwa [Roster.idOf_of_record? hnew] at hne
  · obtain ⟨c, hc, -⟩ := (h.waiting i session hi).record?
    exact Roster.ne_length_of_record? hc

/-- A client of a new id that `Roster.insert` makes present, on an open channel that is no other
client's, keeps the server sound: the ids and the channels of those present stay distinct. -/
theorem enter (h : s.Sound) {id : String} {channel : ChannelId} {roster : Roster}
    (hinsert : (s.roster.add id channel).2.insert s.roster.records.length = (true, roster))
    (hopen : s.engine.channels.isClosed channel = false)
    (hfresh : ∀ j ∈ s.roster.present, ∀ c, s.roster.record? j = some c → c.channel ≠ channel) :
    Sound { s with roster } := by
  have hnew := (h.newcomer hinsert).record
  have hextends := Roster.extends_insert hinsert
  obtain ⟨rfl, hids⟩ := Roster.of_insert hinsert
  have hold : ∀ j ∈ s.roster.present,
      (s.roster.add id channel).2.record? j = s.roster.record? j := by
    intro j hj
    obtain ⟨c, hc, -⟩ := h.present j hj
    exact (hextends j (Roster.ne_length_of_record? hc)).1
  have hmem : ∀ j, j ∈ s.roster.present ++ [s.roster.records.length] ↔
      j ∈ s.roster.present ∨ j = s.roster.records.length := by
    intro j
    rw [List.mem_append, List.mem_singleton]
  refine ⟨h.table, ?_, fun j hj => ?_, fun j hj k hk first second hfirst hsecond heq => ?_,
    fun key sub hsub => ?_, fun i session hi => ?_, h.queued⟩
  · show ((s.roster.present ++ [s.roster.records.length]).map
      (s.roster.add id channel).2.idOf).Nodup
    rw [List.map_append, List.nodup_append]
    refine ⟨?_, List.nodup_singleton _, ?_⟩
    · rw [List.map_congr_left fun j hj => Roster.idOf_congr (hold j hj)]
      exact h.ids
    · intro a ha b hb
      obtain ⟨j, hj, rfl⟩ := List.mem_map.1 ha
      obtain ⟨c, hc, -⟩ := h.present j hj
      have hc := (hold j hj).trans hc
      rw [Roster.idOf_of_record? hc, List.mem_singleton.1 hb]
      exact hids j hj c hc
  · rcases (hmem j).1 hj with hj | rfl
    · obtain ⟨c, hc, hrest⟩ := h.present j hj
      exact ⟨c, (hold j hj).trans hc, hrest⟩
    · exact ⟨_, hnew, rfl, hopen⟩
  · rcases (hmem j).1 hj with hj | rfl
    · have hfirst : s.roster.record? j = some first := (hold j hj).symm.trans hfirst
      rcases (hmem k).1 hk with hk | rfl
      · exact h.channels j hj k hk first second hfirst ((hold k hk).symm.trans hsecond) heq
      · cases hnew.symm.trans hsecond
        exact absurd heq (hfresh j hj first hfirst)
    · cases hnew.symm.trans hfirst
      rcases (hmem k).1 hk with hk | rfl
      · exact absurd heq.symm (hfresh k hk second ((hold k hk).symm.trans hsecond))
      · rfl
  · obtain ⟨j, hj, hc⟩ := h.subscribers key sub hsub
    exact ⟨j, (hmem j).2 (.inl hj), (hold j hj).trans hc⟩
  · obtain ⟨hj, hstate⟩ := h.waiting i session hi
    refine ⟨(hmem _).2 (.inl hj), ?_⟩
    exact (congrArg (Option.map ClientRecord.state) (hold _ hj)).trans hstate

/-- A session of a client that waits and has none in the queue may be offered to the queue by
`Queue.push?`, and the server stays sound, be the session taken or handed back. -/
theorem push (h : s.Sound) {session : Session ε} {put : Put (Session ε)}
    {queue : Queue (Session ε)} (hpush : s.queue.push? session = some (put, queue))
    (hwaits : s.roster.PresentAs session.client .registered)
    (hnew : ∀ i other, s.queue.ring.slot i = some other → other.client ≠ session.client) :
    Sound { s with queue } := by
  have hslots : ∀ i other, queue.ring.slot i = some other →
      i = s.queue.ring.produce ∧ other = session ∨ s.queue.ring.slot i = some other :=
    fun i other hi => (Queue.slot_of_push? hpush hi).imp_left And.right
  refine ⟨h.table, h.ids, h.present, h.channels, h.subscribers, fun i other hi => ?_,
    fun i j first second hi hj heq => ?_⟩
  · rcases hslots i other hi with ⟨-, rfl⟩ | hi
    · exact hwaits
    · exact h.waiting i other hi
  · rcases hslots i first hi with ⟨rfl, rfl⟩ | hi
    · rcases hslots j second hj with ⟨rfl, -⟩ | hj
      · rfl
      · exact absurd heq.symm (hnew j second hj)
    · rcases hslots j second hj with ⟨rfl, rfl⟩ | hj
      · exact absurd heq (hnew i first hi)
      · exact h.queued i j first second hi hj heq

/-- To queue the session of a newcomer keeps the server sound, and leaves the clients as they are or
makes the newcomer absent again, as `Server.enqueue` does where the queue is closed. -/
theorem enqueue (h : s.Sound) {w : Waiter ε} {id : String}
    (hnew : Newcomer w.session.client id w.channel s) {result : Except Error Bool}
    (henqueue : s.enqueue w = (.settled result, now)) :
    now.Sound ∧ (now.roster = s.roster ∨ now.roster = s.roster.detach w.session.client) := by
  have hwaits : s.roster.PresentAs w.session.client .registered :=
    ⟨hnew.present, Roster.stateOf_of_record? hnew.record⟩
  unfold Server.enqueue at henqueue
  split at henqueue
  case h_1 => cases henqueue
  case h_2 returned queue hpush =>
    -- the queue is closed
    cases henqueue
    have hpushed := (h.push hpush hwaits hnew.unqueued).emitResponse w.session.line
      w.session.responses w.session.responses.remainder
    refine ⟨hpushed.dismiss hnew.present hnew.record ?_ fun i session hi => ?_, .inr rfl⟩
    · rw [table_emitResponse]
      exact hnew.free
    · rcases Queue.slot_of_push? hpush hi with ⟨hput, -⟩ | hi
      · cases hput
      · exact hnew.unqueued i session hi
  case h_3 queue hpush =>
    cases henqueue
    exact ⟨h.push hpush hwaits hnew.unqueued, .inl rfl⟩

/-- To take in a client (`Server.enrol`) on an open channel that is no other client's keeps the
server sound, whatever comes of it, and the other clients are as they were. -/
theorem enrol (h : s.Sound) {id : String} {requests : Inlet ε} {responses : Sink} {line : String}
    {channel : ChannelId} {result : Except Error Bool}
    (henrol : s.enrol id requests responses line channel = (.settled result, now))
    (hopen : s.engine.channels.isClosed channel = false)
    (hfresh : ∀ j ∈ s.roster.present, ∀ c, s.roster.record? j = some c → c.channel ≠ channel) :
    now.Sound ∧ s.roster.Extends now.roster := by
  simp only [Server.enrol, Server.reply] at henrol
  split at henrol
  case h_1 =>
    -- a client of the id is present
    have hanswered := h.emitResponse line responses
      (Response.write ⟨.connect, .failed⟩ responses).emitted
    split at henrol
    · cases henrol
      exact ⟨hanswered.emitResponse line _ _, .refl _⟩
    · cases henrol
      exact ⟨(hanswered.closeChannel hfresh).emitResponse line _ _, .refl _⟩
  case h_2 roster hinsert =>
    have hextends := Roster.extends_insert hinsert
    have hentered := h.enter hinsert hopen hfresh
    have hanswered := hentered.emitResponse line responses
      (Response.write ⟨.connect, .ok⟩ responses).emitted
    have hnew := (h.newcomer hinsert).emitResponse line responses
      (Response.write ⟨.connect, .ok⟩ responses).emitted
    split at henrol
    case h_1 =>
      -- the answer does not go out
      cases henrol
      have hgone := hanswered.dismiss hnew.present hnew.record hnew.free hnew.unqueued
      exact ⟨hgone.emitResponse line _ _, hextends.detach⟩
    case h_2 =>
      obtain ⟨hnow, hstays | hgoes⟩ := hanswered.enqueue hnew henrol
      · exact ⟨hnow, hstays.symm ▸ hextends⟩
      · exact ⟨hnow, hgoes.symm ▸ hextends.detach⟩

end Sound

end KeyWatch.Server
