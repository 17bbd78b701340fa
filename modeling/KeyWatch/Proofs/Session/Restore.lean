import KeyWatch.Proofs.Store.Operation
import KeyWatch.Proofs.Table.Contents
import KeyWatch.Session.Serve

/-!
# What a session leaves behind

A client that comes without subscriptions is gone without a trace when its session is over, whatever
it asked for and however the session ended (`handle_restores`): the table with its subscribers and
the index are as before, and so are the other clients and their channels.

While the client is served, the server differs from what it was in the client's own subscriptions
(`Server.Serving`), and once it is dropped, in the client being gone (`Server.Gone`). A request
keeps the first or leads to the second, and then the session is over (`Serving.attend`). The
dropping takes away what the requests have added because a consistent table is determined by its
entries and its lists (`Serving.release`). What else there is to a server does not change but for
the bytes that left and the notes of who let a channel go (`Server.Beside`).
-/

namespace KeyWatch

/-! ## What stands beside the clients -/

/-- A store in which, beside the table and the channels, nothing changed but that bytes left by
`emitAll` and that subscribers let go of one channel. -/
structure Engine.Beside (channel : ChannelId) (e now : Engine) : Prop where
  backups : now.backups = e.backups
  console : now.console = e.console
  output : ∃ out, now.files = (e.emitAll out).files ∧ now.sent = (e.emitAll out).sent
  partings : ∃ more, now.partings = more ++ e.partings ∧ ∀ p ∈ more, p.channel = channel

namespace Engine.Beside

variable {channel : ChannelId} {e now later : Engine}

/-- A store that does not change has nothing changed beside its table and its channels
(`Engine.Beside`). -/
theorem refl (channel : ChannelId) (e : Engine) : e.Beside channel e :=
  ⟨rfl, rfl, ⟨[], rfl, rfl⟩, [], rfl, nofun⟩

/-- Changes of this kind one after another are one: what left leaves in two parts
(`Engine.emitAll_append`). -/
theorem trans (h : e.Beside channel now) (h' : now.Beside channel later) :
    e.Beside channel later := by
  obtain ⟨hbackups, hconsole, ⟨out, hfiles, hsent⟩, more, hpartings, hmore⟩ := h
  obtain ⟨hbackups', hconsole', ⟨out', hfiles', hsent'⟩, more', hpartings', hmore'⟩ := h'
  obtain ⟨hf, hs⟩ := emitAll_congr hfiles hsent out'
  have happend : (e.emitAll out).emitAll out' = e.emitAll (out ++ out') :=
    List.foldl_append.symm
  refine ⟨hbackups'.trans hbackups, hconsole'.trans hconsole, ⟨out ++ out', ?_, ?_⟩,
    more' ++ more, ?_, ?_⟩
  · rw [hfiles', hf, happend]
  · rw [hsent', hs, happend]
  · rw [hpartings', hpartings, List.append_assoc]
  · intro p hp
    exact (List.mem_append.1 hp).elim (hmore' p) (hmore p)

/-- Bytes that leave by `Engine.emitAll` change nothing else beside the table and the channels. -/
theorem emitAll (channel : ChannelId) (e : Engine) (out : List Emission) :
    e.Beside channel (e.emitAll out) := by
  rw [emitAll_eq]
  exact ⟨rfl, rfl, ⟨out, rfl, rfl⟩, [], rfl, nofun⟩

/-- Subscribers that let go of the channel by `Engine.part`, with a new table, change nothing
else. -/
theorem part {ids : List ChannelId} (h : ∀ id ∈ ids, id = channel) (e : Engine) (table : Table) :
    e.Beside channel { e.part ids with table } := by
  refine ⟨rfl, rfl, ⟨[], rfl, rfl⟩, _, rfl, fun p hp => ?_⟩
  obtain ⟨id, hid, rfl⟩ := List.mem_map.1 hp
  exact h id (List.mem_reverse.1 hid)

/-- To close a channel by `Engine.closeChannel` lets bytes leave and changes nothing else. -/
theorem closeChannel (channel : ChannelId) (e : Engine) (id : ChannelId) :
    e.Beside channel (e.closeChannel id) := by
  have hchannels : e.Beside channel { e with channels := (e.channels.close id).2 } :=
    ⟨rfl, rfl, ⟨[], rfl, rfl⟩, [], rfl, nofun⟩
  exact hchannels.trans (emitAll channel _ (e.channels.close id).1)

end Engine.Beside

/-- A server in which, beside the table, the clients and the channels, nothing changed but that
bytes left and that subscribers let go of one channel (`Engine.Beside`). -/
structure Server.Beside {ε χ : Type} (channel : ChannelId) (s now : Server ε χ) : Prop where
  engine : s.engine.Beside channel now.engine
  queue : now.queue = s.queue
  stopping : now.stopping = s.stopping
  outside : now.outside = s.outside

/-- The channels on which a client listens (`Table.channelsOf`) are those of its subscribers. -/
theorem Table.exists_of_mem_channelsOf {t : Table} {client : String} {keys : List String}
    {channel : ChannelId} (h : channel ∈ t.channelsOf client keys) :
    ∃ key, ∃ sub ∈ (t.listOf key).subscribers, sub.client = client ∧ sub.channel = channel := by
  obtain ⟨key, -, hkey⟩ := List.mem_filterMap.1 h
  obtain ⟨i, hr, hc⟩ := Option.bind_eq_some_iff.1 hkey
  obtain ⟨sub, hfound, hsub⟩ := Option.map_eq_some_iff.1 hc
  refine ⟨key, sub, ?_, ?_, hsub⟩
  · rw [listOf_of_route hr]
    exact List.mem_of_find?_eq_some hfound
  · exact beq_iff_eq.1 (List.find?_some hfound :)

namespace Server

variable {ε χ : Type}

/-- A server in which nothing else changed stays so when its store changes in this way
(`Engine.Beside`) and its clients change. -/
theorem Beside.trans_engine {channel : ChannelId} {s now : Server ε χ} {e : Engine}
    {roster : Roster} (h : s.Beside channel now) (he : now.engine.Beside channel e) :
    s.Beside channel { now with engine := e, roster } :=
  ⟨h.engine.trans he, h.queue, h.stopping, h.outside⟩

/-! ## A client that is served, and one that is gone -/

/-- A server that serves a client which came without subscriptions: it differs from what it was in
the subscriptions of the client on the client's channel, and else as `Server.Beside` says. -/
structure Serving (client : ClientHandle) (record : ClientRecord) (s now : Server ε χ) : Prop where
  consistent : now.engine.table.Consistent
  entries : ∀ i, (now.engine.table.bucket i).entries = (s.engine.table.bucket i).entries
  others : ∀ key, (now.engine.table.listOf key).remove record.id = s.engine.table.listOf key
  own : ∀ key, ∀ sub ∈ (now.engine.table.listOf key).subscribers,
    sub.client = record.id → sub.channel = record.channel
  channels : now.engine.channels = s.engine.channels
  roster : now.roster = s.roster.setState client .active
  beside : s.Beside record.channel now

/-- A server that is as it was, but that a client is gone: it is absent (`Roster.detach`), its
record says closed, and its channel is closed. -/
structure Gone (client : ClientHandle) (record : ClientRecord) (s now : Server ε χ) : Prop where
  table : now.engine.table = s.engine.table
  channels : ∀ id, now.engine.channels.sink? id =
    if id = record.channel then none else s.engine.channels.sink? id
  roster : now.roster = (s.roster.detach client).setState client .closed
  beside : s.Beside record.channel now

variable {client : ClientHandle} {record : ClientRecord} {s now : Server ε χ}

/-- The serving begins when the client's state becomes active, and nothing has changed by then
(`Serving`). -/
theorem Serving.setState (hconsistent : s.engine.table.Consistent)
    (hfree : ∀ key, record.id ∉ (s.engine.table.listOf key).clients) :
    s.Serving client record (s.setState client .active) where
  consistent := hconsistent
  entries _ := rfl
  others key := SubscriberList.remove_eq_self (hfree key)
  own key _ hsub hid := absurd (hid ▸ List.mem_map_of_mem hsub) (hfree key)
  channels := rfl
  roster := rfl
  beside := ⟨.refl _ _, rfl, rfl, rfl⟩

/-- What is written on a response line by `emitResponse` keeps a server serving its client. -/
theorem Serving.emitResponse (h : s.Serving client record now) (line : String) (out : Sink)
    (emitted : Option Bytes) :
    s.Serving client record (now.emitResponse line out emitted) where
  consistent := by rw [table_emitResponse]; exact h.consistent
  entries i := by rw [table_emitResponse]; exact h.entries i
  others key := by rw [table_emitResponse]; exact h.others key
  own key := by rw [table_emitResponse]; exact h.own key
  channels := by rw [channels_emitResponse]; exact h.channels
  roster := h.roster
  beside := h.beside.trans_engine (.emitAll _ _ _)

/-- What is written on a response line by `emitResponse` keeps a server one whose client is gone. -/
theorem Gone.emitResponse (h : s.Gone client record now) (line : String) (out : Sink)
    (emitted : Option Bytes) : s.Gone client record (now.emitResponse line out emitted) where
  table := by rw [table_emitResponse]; exact h.table
  channels id := by rw [channels_emitResponse]; exact h.channels id
  roster := h.roster
  beside := h.beside.trans_engine (.emitAll _ _ _)

/-- The client that is served has its record (`Roster.record?`), which says that it is active. -/
theorem Serving.record? (h : s.Serving client record now)
    (hrecord : s.roster.record? client = some record) :
    now.roster.record? client = some { record with state := .active } :=
  h.roster ▸ Roster.record?_setState_self hrecord .active

/-- Subscribers of the client that let go of their channels by `Engine.part` let go of no channel
but the client's. -/
theorem Serving.part (h : s.Serving client record now) (keys : List String) (table : Table) :
    s.Beside record.channel { now with
      engine := { now.engine.part (now.engine.table.channelsOf record.id keys) with table } } := by
  refine h.beside.trans_engine (.part (fun id hid => ?_) _ _)
  obtain ⟨key, sub, hsub, hclient, rfl⟩ := Table.exists_of_mem_channelsOf hid
  exact h.own key sub hsub hclient

/-- Dropping the client by `Server.release` takes all its subscriptions away, so it is `Gone`: the
table is what it was, as its entries and its lists are. -/
theorem Serving.release (hconsistent : s.engine.table.Consistent)
    (hrecord : s.roster.record? client = some record) (h : s.Serving client record now) :
    s.Gone client record (now.release client) := by
  rw [release_of_not_closed (h.record? hrecord) nofun]
  refine ⟨?_, fun id => ?_, ?_, ?_⟩
  · rw [Engine.table_closeChannel, Engine.table_removeAll]
    refine (h.consistent.removeAll record.id).ext hconsistent (fun i => ?_) fun key => ?_
    · rw [Table.entries_removeAll, h.entries]
    · rw [Table.listOf_removeAll h.consistent, h.others]
  · rw [Engine.channels_closeChannel, Channels.sink?_close, Engine.channels_removeAll, h.channels]
  · rw [h.roster]
    exact Roster.setState_setState (s.roster.detach client) client .active .closed
  · exact (h.part (now.engine.table.keysOf record.id) _).trans_engine (.closeChannel _ _ _)

/-- The client is dropped only once: where it is `Gone`, a second `Server.release` changes
nothing. -/
theorem Gone.release (hrecord : s.roster.record? client = some record)
    (h : s.Gone client record now) : now.release client = now := by
  have hdetached : (s.roster.detach client).record? client = some record := hrecord
  have hclosed := Roster.record?_setState_self hdetached .closed
  rw [← h.roster] at hclosed
  exact release_of_closed hclosed rfl

/-! ## Requests -/

/-- A request that `Server.perform` carries out changes nothing but the client's subscriptions,
unless the client disconnects and is `Gone`. -/
theorem Serving.perform (hconsistent : s.engine.table.Consistent)
    (hrecord : s.roster.record? client = some record) (h : s.Serving client record now)
    (r : Request) :
    (r ≠ .disconnect ∧ s.Serving client record (now.perform client r).2) ∨
      (r = .disconnect ∧ (now.perform client r).1.isSome = true ∧
        s.Gone client record (now.perform client r).2) := by
  cases r with
  | connect => exact .inl ⟨nofun, h⟩
  | disconnect => exact .inr ⟨rfl, rfl, h.release hconsistent hrecord⟩
  | subscribe key =>
    refine .inl ⟨nofun, ?_⟩
    simp only [Server.perform, h.record? hrecord]
    cases hs : now.engine.subscribe key record.id record.channel with
    | error fault => exact h
    | ok done =>
      obtain ⟨outcome, after⟩ := done
      obtain ⟨table, ht, rfl⟩ := Engine.subscribe_eq_ok hs
      have hlist := Table.listOf_of_subscribe ht
      refine ⟨h.consistent.subscribe ht, fun i => ?_, fun k => ?_, fun k sub hsub hid => ?_,
        h.channels, h.roster, h.part [key] table⟩
      · exact (Table.entries_of_subscribe ht i).trans (h.entries i)
      · show (table.listOf k).remove record.id = _
        rw [hlist, ← h.others]
        split
        case isTrue hk =>
          rw [hk]
          exact SubscriberList.remove_add _ ⟨record.id, record.channel⟩
        case isFalse => rfl
      · replace hsub : sub ∈ (table.listOf k).subscribers := hsub
        rw [hlist] at hsub
        split at hsub
        case isTrue =>
          rcases SubscriberList.mem_add hsub with rfl | hold
          · rfl
          · exact h.own key sub hold hid
        case isFalse => exact h.own k sub hsub hid
  | unsubscribe key =>
    refine .inl ⟨nofun, ?_⟩
    simp only [Server.perform, h.record? hrecord]
    have hlist := Table.listOf_unsubscribe now.engine.table key record.id
    refine ⟨h.consistent.unsubscribe key record.id, fun i => ?_, fun k => ?_,
      fun k sub hsub hid => ?_, h.channels, h.roster, h.part [key] _⟩
    · exact (Table.entries_unsubscribe now.engine.table key record.id i).trans (h.entries i)
    · refine (congrArg (SubscriberList.remove · record.id) (hlist k)).trans ?_
      rw [← h.others]
      split
      case isTrue hk =>
        rw [hk]
        exact SubscriberList.remove_remove _ record.id
      case isFalse => rfl
    · replace hsub : sub ∈ ((now.engine.table.unsubscribe key record.id).2.listOf k).subscribers :=
        hsub
      rw [hlist] at hsub
      split at hsub
      case isTrue => exact h.own key sub (List.mem_filter.1 hsub).1 hid
      case isFalse => exact h.own k sub hsub hid

/-- What is read of the client's requests by `Server.attend` changes nothing but its subscriptions,
or the client is `Gone` and the session over. -/
theorem Serving.attend (hconsistent : s.engine.table.Consistent)
    (hrecord : s.roster.record? client = some record) (h : s.Serving client record now)
    (line : String) (out : Sink) (received : Except Error (Option Request)) :
    s.Serving client record (now.attend client line out received).2.2 ∨
      ((now.attend client line out received).1.isSome = true ∧
        s.Gone client record (now.attend client line out received).2.2) := by
  cases received with
  | error fault => exact .inl h
  | ok found =>
    cases found with
    | none => exact .inl h
    | some r =>
      simp only [Server.attend, Server.answer]
      have hperform := h.perform hconsistent hrecord r
      generalize now.perform client r = done at hperform ⊢
      obtain ⟨response, after⟩ := done
      cases response with
      | none =>
        rcases hperform with ⟨-, hserving⟩ | ⟨-, hsome, -⟩
        · exact .inl hserving
        · cases hsome
      | some response =>
        rcases hperform with ⟨-, hserving⟩ | ⟨rfl, -, hgone⟩
        · refine .inl ?_
          simp only [Server.reply]
          split <;> exact hserving.emitResponse line out _
        · refine .inr ?_
          simp only [Server.reply]
          split <;> exact ⟨rfl, hgone.emitResponse line out _⟩

/-- All requests together by `Server.serveAll` change nothing but the client's subscriptions, or the
client is `Gone`; by induction with `Serving.attend`. -/
theorem Serving.serveAll (act : ε → Server ε χ → Server ε χ)
    (hconsistent : s.engine.table.Consistent) (hrecord : s.roster.record? client = some record)
    {requests : List (Received ε Request)} (hevents : ∀ r ∈ requests, r.events = [])
    (h : s.Serving client record now) (line : String) (out : Sink) :
    s.Serving client record (Server.serveAll act client line requests out now).2.2 ∨
      s.Gone client record (Server.serveAll act client line requests out now).2.2 := by
  induction requests generalizing now out with
  | nil => exact .inl h
  | cons received rest ih =>
    have hattend := h.attend hconsistent hrecord line out received.result
    rw [Server.serveAll, hevents received List.mem_cons_self]
    simp only [react, List.foldl_nil]
    generalize now.attend client line out received.result = done at hattend ⊢
    obtain ⟨ending, out', after⟩ := done
    cases ending with
    | some result => exact hattend.imp_right And.right
    | none =>
      rcases hattend with hserving | ⟨hsome, -⟩
      · exact ih (fun r hr => hevents r (List.mem_cons_of_mem received hr)) hserving out'
      · cases hsome

/-- A session that is handled by `Server.handle` ends with its client `Gone`. -/
theorem gone_handle {act : ε → Server ε χ → Server ε χ} {session : Session ε}
    (hconsistent : s.engine.table.Consistent)
    (hrecord : s.roster.record? session.client = some record)
    (hfree : ∀ key, record.id ∉ (s.engine.table.listOf key).clients)
    (hevents : (session.requests.toSource s.engine.files).events = []) :
    s.Gone session.client record (handle act session s).2 := by
  have hserved := Serving.serveAll act hconsistent hrecord
    (events_of_mem_readAll Request.events_read hevents) (.setState hconsistent hfree) session.line
    session.responses
  simp only [handle, finish, hangUp]
  refine Gone.emitResponse ?_ session.line _ _
  rcases hserved with hserving | hgone
  · exact hserving.release hconsistent hrecord
  · exact (hgone.release hrecord).symm ▸ hgone

/-- Whatever a client asks for in its session and however the session ends, if the client came
without subscriptions, then after `Server.handle` the table is as it was, with the lists of
subscribers and the index, and so are the other clients and their channels. The client is absent,
its record says that it is closed, and its channel is closed. -/
theorem handle_restores {act : ε → Server ε χ → Server ε χ} {session : Session ε}
    (hconsistent : s.engine.table.Consistent)
    (hrecord : s.roster.record? session.client = some record)
    (hfree : ∀ key, record.id ∉ (s.engine.table.listOf key).clients)
    (hevents : (session.requests.toSource s.engine.files).events = []) :
    (handle act session s).2.engine.table = s.engine.table ∧
      (handle act session s).2.roster.present = s.roster.present.filter (· != session.client) ∧
      (∀ h, (handle act session s).2.roster.record? h =
        if h = session.client then some { record with state := .closed }
        else s.roster.record? h) ∧
      (∀ id, (handle act session s).2.engine.channels.sink? id =
        if id = record.channel then none else s.engine.channels.sink? id) ∧
      s.Beside record.channel (handle act session s).2 := by
  have hgone : s.Gone session.client record (handle act session s).2 :=
    gone_handle hconsistent hrecord hfree hevents
  refine ⟨hgone.table, ?_, fun h => ?_, hgone.channels, hgone.beside⟩
  · rw [hgone.roster]
    rfl
  · rw [hgone.roster, Roster.record?_setState, Roster.record?_detach, Roster.record?_detach,
      hrecord]
    rfl

/-- A server with a client that watches a key and one that waits to be served
(`handle_restores`). -/
def oneWatches : Server Empty Unit where
  engine := Operation.runAll
    [.openChannel {}, .openChannel {}, .write "k" "v", .subscribe "k" "a" 0] (.ofFiles 1 .bare)
  roster := ⟨[⟨"a", 0, .active⟩, ⟨"b", 1, .registered⟩], [0, 1]⟩
  queue := .empty 1
  stopping := false
  outside := ()

/-- A session that subscribes to a key and gets half of the answer before its line breaks
(`handle_restores`). -/
def breakingOff : Session Empty where
  client := 1
  requests := .source [.bytes [0x33, 0x6b], .bytes (List.replicate 40 0), .bytes [0x32]]
  responses := { script := [.accept 1, .accept 0] }
  line := "b"

/-- The session `breakingOff` fails on `oneWatches`, the client that watches the key watches it
still, and the other is gone. -/
theorem handle_restores_breakingOff :
    (handle (fun e => nomatch e) breakingOff oneWatches).1 = .error (.ofIo writeZero "response") ∧
      (handle (fun e => nomatch e) breakingOff oneWatches).2.engine.table =
        oneWatches.engine.table ∧
      (handle (fun e => nomatch e) breakingOff oneWatches).2.roster.present = [0] := by
  have hconsistent : oneWatches.engine.table.Consistent := .runAll .empty _
  have hfree : ∀ key, "b" ∉ (oneWatches.engine.table.listOf key).clients := by
    intro key hmem
    have hkey := ClientIndex.mem_keysOf.2 ((hconsistent.mem_listOf_iff "b" key).1 hmem)
    have hnone : oneWatches.engine.table.index.keysOf "b" = [] := by decide +kernel
    rw [hnone] at hkey
    cases hkey
  obtain ⟨htable, hpresent, -⟩ := @handle_restores Empty Unit ⟨"b", 1, .registered⟩ oneWatches
    (fun e => nomatch e) breakingOff hconsistent rfl hfree rfl
  exact ⟨rfl, htable, hpresent⟩

end Server

end KeyWatch
