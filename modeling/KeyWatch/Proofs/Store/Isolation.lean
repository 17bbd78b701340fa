import KeyWatch.Proofs.Notice.OneChannel
import KeyWatch.Proofs.Store.Operation
import KeyWatch.Proofs.Table.Past
import KeyWatch.Proofs.Table.Without

/-!
# Clients do not disturb each other

Take everything out of a run that one client did for itself: its subscriptions and their ends, and
its leaving. The client stands in the lists of subscribers between the others, its keys are in the
index beside theirs, and its channel is tried in the same deliveries and may take its notices in
pieces, fail, or be closed. Still nobody else can tell the two runs apart (`isolated_runAll`): every
operation of the others goes as it went, both stores show the same entries and the same subscribers
but the client (`Engine.AlikeBut`), and each channel that is not the client's takes the same bytes.

The two runs are held together by `Engine.Apart`: the table of the second is what the client leaves
behind of the first's (`Table.without`), and the channels are alike but for the client's. An
operation of the client changes only the first store and keeps the two together
(`Engine.Apart.run_own`), and one of the others changes both and goes the same way in both
(`Engine.Apart.run_other`).
-/

namespace KeyWatch

namespace Operation

/-- How an operation went, as its caller is told (`Operation.answer`). -/
inductive Answer where
  | changed (result : ChangeResult)
  | subscribed (outcome : Except Error SubscribeOutcome)
  | unsubscribed (outcome : UnsubscribeOutcome)
  | left (count : Nat)
  | opened (channel : ChannelId)
  | closed

/-- How an operation goes on a store, whose other half is `Operation.run`. -/
def answer (e : Engine) : Operation → Answer
  | write key value => .changed (.written (e.apply (·.write key value)).1)
  | writeMany pairs => .changed (.writtenMany (e.apply (·.writeMany pairs)).1)
  | delete key => .changed (.deleted (e.apply (·.delete key)).1)
  | deleteMany keys => .changed (.deletedMany (e.apply (·.deleteMany keys)).1)
  | subscribe key client channel => .subscribed ((e.subscribe key client channel).map Prod.fst)
  | unsubscribe key client => .unsubscribed (e.unsubscribe key client).1
  | removeAll client => .left (e.removeAll client).1
  | openChannel sink => .opened (e.openChannel sink).1
  | closeChannel _ => .closed

/-- The notices that an operation on a table sends; operations on subscriptions send none. -/
def notices (t : Table) : Operation → List Notice
  | write key value => (t.write key value).notices
  | writeMany pairs => (t.writeMany pairs).notices
  | delete key => (t.delete key).notices
  | deleteMany keys => (t.deleteMany keys).notices
  | _ => []

/-- How the operations of a row go, one after another, each on the store that those before have
left. -/
def answers : List Operation → Engine → List (Operation × Answer)
  | [], _ => []
  | op :: rest, e => (op, op.answer e) :: answers rest (op.run e)

/-- The bytes that a channel takes in a row of operations (`Channels.takenOn`). -/
def bytesOn (id : ChannelId) : List Operation → Engine → Bytes
  | [], _ => []
  | op :: rest, e =>
    Channels.takenOn id (op.notices e.table) e.channels ++ bytesOn id rest (op.run e)

/-- Whether an operation is one of a client on its subscriptions. -/
def isOf (client : String) : Operation → Bool
  | subscribe _ c _ | unsubscribe _ c | removeAll c => c == client
  | _ => false

/-- The operations of a row but those of a client on its subscriptions (`isOf`). -/
def without (client : String) (ops : List Operation) : List Operation :=
  ops.filter (!isOf client ·)

/-- The channel on which an operation subscribes a client, or `none` if it does not. -/
def channelOf? (client : String) : Operation → Option ChannelId
  | subscribe _ c channel => if c = client then some channel else none
  | _ => none

/-- The channels on which a client subscribes in a row of operations. -/
def channelsOf (client : String) (ops : List Operation) : List ChannelId :=
  ops.filterMap (channelOf? client)

/-- A client that does something for itself (`isOf`) tells nobody. -/
theorem notices_of_isOf {client : String} {op : Operation} (h : op.isOf client = true)
    (t : Table) : op.notices t = [] := by
  cases op with
  | write | writeMany | delete | deleteMany | openChannel | closeChannel => cases h
  | subscribe | unsubscribe | removeAll => rfl

/-- An operation subscribes on the channels of a client the client and nobody else, and the client
on no others. -/
def Respects (client : String) (own : List ChannelId) : Operation → Prop
  | subscribe _ c channel => channel ∈ own ↔ c = client
  | _ => True

/-- If a client shares its channels with nobody in a row, all operations of the row respect that
(`Respects`). -/
theorem respects_of_mem {client : String} {ops : List Operation}
    (h : ∀ other, other ≠ client → ∀ id ∈ channelsOf other ops, id ∉ channelsOf client ops)
    {op : Operation} (hop : op ∈ ops) : op.Respects client (channelsOf client ops) := by
  cases op with
  | write | writeMany | delete | deleteMany | unsubscribe | removeAll | openChannel
  | closeChannel => trivial
  | subscribe key c channel =>
    have hlisted : channel ∈ channelsOf c ops :=
      List.mem_filterMap.2 ⟨_, hop, if_pos rfl⟩
    constructor
    · intro hown
      exact Decidable.byContradiction fun hne => h c hne channel hlisted hown
    · rintro rfl
      exact hlisted

end Operation

/-- Two stores that show the same to everybody but a client: the same entries, the same subscribers
but the client with their channels and in their order, the same keys of every other client, and the
same sinks of the channels that are not the client's, on whose lines has left the same. -/
structure Engine.AlikeBut (client : String) (own : List ChannelId) (e d : Engine) : Prop where
  read : ∀ key, e.table.read key = d.table.read key
  contains : ∀ key, e.table.contains key = d.table.contains key
  readMany : ∀ keys, e.table.readMany keys = d.table.readMany keys
  snapshot : e.table.snapshot = d.table.snapshot
  size : e.table.size = d.table.size
  subscribers : ∀ key, (e.table.listOf key).remove client = d.table.listOf key
  index : ∀ other, other ≠ client →
    e.table.index.keySets.find? other = d.table.index.keySets.find? other
  sinks : ∀ id, id ∉ own → e.channels.sink? id = d.channels.sink? id
  sent : ∀ id, id ∉ own → e.sentOn id = d.sentOn id

/-- A store and one without a client: the client listens on channels of its own (`Table.Apart`), the
table of the second store is the one that the client leaves behind (`Table.without`), and the
channels but the client's are alike and have emitted the same. -/
structure Engine.Apart (client : String) (own : List ChannelId) (e d : Engine) : Prop where
  table : e.table.Apart client own
  without : d.table = e.table.without client
  channels : Channels.AlikeBut own e.channels d.channels
  sent : ∀ id, id ∉ own → e.sentOn id = d.sentOn id

namespace Engine.Apart

open Operation

variable {client : String} {own : List ChannelId} {e d : Engine} {op : Operation}

/-- Before anybody subscribes, a store is one without the client (`Engine.Apart`). -/
theorem start (client : String) (own : List ChannelId) (e : Engine) :
    Apart client own { e with table := .empty } { e with table := .empty } where
  table := ⟨.empty, fun key sub hsub => by
    rw [Table.listOf_empty] at hsub
    cases hsub⟩
  without := rfl
  channels := .refl own e.channels
  sent _ _ := rfl

/-- A store and one without a client show the same to everybody else (`Engine.AlikeBut`). -/
theorem alikeBut (h : Apart client own e d) : AlikeBut client own e d := by
  have hentries : ∀ i, (e.table.bucket i).entries = (d.table.bucket i).entries := fun i => by
    rw [h.without, Table.entries_without]
  have hread : ∀ key, e.table.read key = d.table.read key := fun key => by
    simp only [Table.read, Bucket.get?, hentries]
  have hsnapshot : e.table.snapshot = d.table.snapshot := by
    simp only [Table.snapshot_eq, hentries]
  exact {
    read := hread
    contains := Table.contains_eq_of_entries hentries
    readMany := fun keys => by simp only [Table.readMany_eq_map, hread]
    snapshot := hsnapshot
    size := by rw [Table.size_eq, Table.size_eq, hsnapshot]
    subscribers := fun key => by rw [h.without, h.table.consistent.listOf_without]
    index := fun other hne => by rw [h.without, Table.find?_keySets_without _ hne]
    sinks := h.channels.sink?
    sent := h.sent }

/-! ## Operations of the client -/

/-- What a client does on its subscriptions (`isOf`) does not show in what it leaves behind, so the
second store need not move. -/
theorem run_own (h : Apart client own e d) (hof : op.isOf client = true)
    (hop : op.Respects client own) : Apart client own (op.run e) d := by
  have hconsistent := h.table.consistent
  cases op with
  | write | writeMany | delete | deleteMany | openChannel | closeChannel => cases hof
  | unsubscribe key c =>
    obtain rfl : c = client := beq_iff_eq.1 hof
    refine ⟨h.table.unsubscribe key c, ?_, h.channels, h.sent⟩
    exact h.without.trans (hconsistent.without_unsubscribe key).symm
  | removeAll c =>
    obtain rfl : c = client := beq_iff_eq.1 hof
    refine ⟨h.table.removeAll c, ?_, h.channels, h.sent⟩
    exact h.without.trans (hconsistent.without_without c).symm
  | subscribe key c channel =>
    obtain rfl : c = client := beq_iff_eq.1 hof
    simp only [Operation.run]
    cases hs : e.subscribe key c channel with
    | error fault => exact h
    | ok done =>
      obtain ⟨outcome, after⟩ := done
      obtain ⟨table, ht, rfl⟩ := Engine.subscribe_eq_ok hs
      refine ⟨h.table.subscribe ht hop, ?_, h.channels, h.sent⟩
      exact h.without.trans (hconsistent.without_subscribe ht).symm

/-! ## Operations of the others -/

/-- An operation on entries goes the same way in both stores, if it does so on their tables, and the
channels that are not the client's take the same bytes. -/
theorem apply {α : Type} (h : Apart client own e d) (f : Table → Effect Table α)
    (hkeep : (f e.table).state.Apart client own)
    (hstep : f (e.table.without client) = (f e.table).without client own) :
    (e.apply f).1 = (d.apply f).1 ∧ Apart client own (e.apply f).2 (d.apply f).2 ∧
      ∀ id, id ∉ own → Channels.takenOn id (f e.table).notices e.channels =
        Channels.takenOn id (f d.table).notices d.channels := by
  rw [← h.without] at hstep
  have hnotices : (f d.table).notices = (f e.table).notices.filter (·.channel ∉ own) := by
    rw [hstep]
    rfl
  refine ⟨?_, ⟨?_, ?_, ?_, fun id hid => ?_⟩, fun id hid => ?_⟩
  · show (f e.table).result = (f d.table).result
    rw [hstep]
    rfl
  · rw [Engine.table_apply]
    exact hkeep
  · rw [Engine.table_apply, Engine.table_apply, hstep]
    rfl
  · rw [Engine.apply, Engine.apply, (Engine.deliver_eq _ _).1, (Engine.deliver_eq _ _).1, hnotices]
    exact h.channels.deliver _
  · rw [Engine.apply, Engine.apply, Engine.sentOn_deliver_eq, Engine.sentOn_deliver_eq, hnotices,
      (h.channels.filter_deliver hid _).1]
    exact congrArg (· ++ _) (h.sent id hid)
  · rw [hnotices]
    exact (h.channels.filter_deliver hid _).2

/-- Whatever channel is closed in both stores, what leaves on the others is the same. -/
theorem closeChannel (h : Apart client own e d) (channel : ChannelId) :
    Apart client own (e.closeChannel channel) (d.closeChannel channel) := by
  obtain ⟨hchannels, hleft⟩ := h.channels.close channel
  refine ⟨?_, ?_, ?_, fun id hid => ?_⟩
  · rw [Engine.table_closeChannel]
    exact h.table
  · rw [Engine.table_closeChannel, Engine.table_closeChannel]
    exact h.without
  · rw [Engine.channels_closeChannel, Engine.channels_closeChannel]
    exact hchannels
  · rw [Engine.closeChannel, Engine.closeChannel, Engine.sentOn_emitAll, Engine.sentOn_emitAll,
      hleft id hid]
    exact congrArg (· ++ _) (h.sent id hid)

/-- What the others do goes the same way in both stores (`answer`), which stay apart by the client
alone, and the channels that are not the client's take the same bytes. -/
theorem run_other (h : Apart client own e d) (hof : op.isOf client = false)
    (hop : op.Respects client own) :
    op.answer e = op.answer d ∧ Apart client own (op.run e) (op.run d) ∧
      ∀ id, id ∉ own → Channels.takenOn id (op.notices e.table) e.channels =
        Channels.takenOn id (op.notices d.table) d.channels := by
  cases op with
  | write key value =>
    obtain ⟨hresult, hafter, htaken⟩ :=
      h.apply (·.write key value) (h.table.write key value) (h.table.write_without key value)
    exact ⟨congrArg (fun result => Answer.changed (.written result)) hresult, hafter, htaken⟩
  | writeMany pairs =>
    obtain ⟨hresult, hafter, htaken⟩ :=
      h.apply (·.writeMany pairs) (h.table.writeMany pairs) (h.table.writeMany_without pairs)
    exact ⟨congrArg (fun result => Answer.changed (.writtenMany result)) hresult, hafter, htaken⟩
  | delete key =>
    obtain ⟨hresult, hafter, htaken⟩ :=
      h.apply (·.delete key) (h.table.delete key) (h.table.delete_without key)
    exact ⟨congrArg (fun result => Answer.changed (.deleted result)) hresult, hafter, htaken⟩
  | deleteMany keys =>
    obtain ⟨hresult, hafter, htaken⟩ :=
      h.apply (·.deleteMany keys) (h.table.deleteMany keys) (h.table.deleteMany_without keys)
    exact ⟨congrArg (fun result => Answer.changed (.deletedMany result)) hresult, hafter, htaken⟩
  | openChannel sink =>
    obtain ⟨hnumber, hchannels⟩ := h.channels.open sink
    exact ⟨congrArg Answer.opened hnumber, ⟨h.table, h.without, hchannels, h.sent⟩,
      fun _ _ => rfl⟩
  | closeChannel channel => exact ⟨rfl, h.closeChannel channel, fun _ _ => rfl⟩
  | unsubscribe key c =>
    have hne : c ≠ client := beq_eq_false_iff_ne.1 hof
    have hd := h.table.consistent.unsubscribe_without hne key
    rw [← h.without] at hd
    refine ⟨?_, ⟨h.table.unsubscribe key c, congrArg Prod.snd hd, h.channels, h.sent⟩,
      fun _ _ => rfl⟩
    exact congrArg (fun done => Answer.unsubscribed done.1) hd.symm
  | removeAll c =>
    have hne : c ≠ client := beq_eq_false_iff_ne.1 hof
    have hd := h.table.consistent.removeAll_without hne
    rw [← h.without] at hd
    refine ⟨?_, ⟨h.table.removeAll c, congrArg Prod.snd hd, h.channels, h.sent⟩, fun _ _ => rfl⟩
    exact congrArg (fun done => Answer.left done.1) hd.symm
  | subscribe key c channel =>
    have hne : c ≠ client := beq_eq_false_iff_ne.1 hof
    have hd := h.table.consistent.subscribe_without hne key channel
    rw [← h.without] at hd
    simp only [answer, Operation.run, Engine.subscribe, hd]
    cases hs : e.table.subscribe key c channel with
    | error fault => exact ⟨rfl, h, fun _ _ => rfl⟩
    | ok done =>
      exact ⟨rfl, ⟨h.table.subscribe hs hop, rfl, h.channels, h.sent⟩, fun _ _ => rfl⟩

/-! ## Rows of operations -/

/-- Two stores that are held together by `Engine.Apart` stay so along a row of operations and the
row without the client's, by `run_own` and `run_other`. -/
theorem runAll (h : Apart client own e d) {ops : List Operation}
    (hops : ∀ op ∈ ops, op.Respects client own) :
    (answers ops e).filter (!isOf client ·.1) = answers (Operation.without client ops) d ∧
      Apart client own (Operation.runAll ops e)
        (Operation.runAll (Operation.without client ops) d) ∧
      ∀ id, id ∉ own → bytesOn id ops e = bytesOn id (Operation.without client ops) d := by
  induction ops generalizing e d with
  | nil => exact ⟨rfl, h, fun _ _ => rfl⟩
  | cons op rest ih =>
    have hop := hops op List.mem_cons_self
    have hrest := fun r hr => hops r (List.mem_cons_of_mem op hr)
    cases hof : op.isOf client with
    | true =>
      obtain ⟨hanswers, hafter, hbytes⟩ := ih (h.run_own hof hop) hrest
      have hwithout : Operation.without client (op :: rest) = Operation.without client rest :=
        List.filter_cons_of_neg (by simp [hof])
      have hsilent : op.notices e.table = [] := notices_of_isOf hof e.table
      rw [hwithout, answers, List.filter_cons_of_neg (by simp [hof])]
      refine ⟨hanswers, hafter, fun id hid => ?_⟩
      rw [bytesOn, hsilent]
      exact hbytes id hid
    | false =>
      obtain ⟨hanswer, hstep, htaken⟩ := h.run_other hof hop
      obtain ⟨hanswers, hafter, hbytes⟩ := ih hstep hrest
      have hwithout : Operation.without client (op :: rest) =
          op :: Operation.without client rest :=
        List.filter_cons_of_pos (by simp [hof])
      rw [hwithout, answers, answers, List.filter_cons_of_pos (by simp [hof]), hanswers, hanswer]
      refine ⟨rfl, hafter, fun id hid => ?_⟩
      rw [bytesOn, bytesOn, htaken id hid, hbytes id hid]

end Engine.Apart

open Operation in
/-- In every run that begins with an empty table, whatever the channels are and become, what a
client with channels of its own does on its subscriptions makes no difference to anybody else:
without it the other operations go the same way (`answers`), both runs end in stores that are alike
but for the client (`Engine.AlikeBut`), and every channel that is not the client's takes the same
bytes. What is read on the way is read at the end of a shorter run. -/
theorem isolated_runAll (client : String) (e : Engine) {ops : List Operation}
    (hchannels : ∀ other, other ≠ client →
      ∀ id ∈ channelsOf other ops, id ∉ channelsOf client ops) :
    (answers ops { e with table := .empty }).filter (!isOf client ·.1) =
        answers (without client ops) { e with table := .empty } ∧
      Engine.AlikeBut client (channelsOf client ops) (runAll ops { e with table := .empty })
        (runAll (without client ops) { e with table := .empty }) ∧
      ∀ id, id ∉ channelsOf client ops → bytesOn id ops { e with table := .empty } =
        bytesOn id (without client ops) { e with table := .empty } := by
  obtain ⟨hanswers, hafter, hbytes⟩ :=
    (Engine.Apart.start client (channelsOf client ops) e).runAll fun _ => respects_of_mem hchannels
  exact ⟨hanswers, hafter.alikeBut, hbytes⟩

/-- A store with two channels, of which the second takes three bytes and then breaks. -/
def secondBreaks : Engine :=
  { Engine.ofFiles 1 .bare with
    channels := ⟨[some {}, some { script := [.accept 3, .fail (.ofKind .brokenPipe)] }]⟩ }

/-- A client whose channel breaks stands before another in the list of a key, and leaves while its
channel is closed. -/
def standsBefore : List Operation :=
  [.subscribe "k" "c" 1, .subscribe "k" "b" 0, .write "k" "v", .closeChannel 1, .removeAll "c",
    .subscribe "j" "c" 1, .delete "k", .removeAll "b"]

open Operation in
/-- On `secondBreaks` the other client hears of the write and of the deletion, whole and once, as it
does without the client that `standsBefore` it. -/
theorem isolated_runAll_standsBefore :
    (∀ other, other ≠ "c" →
        ∀ id ∈ channelsOf other standsBefore, id ∉ channelsOf "c" standsBefore) ∧
      (answers standsBefore { secondBreaks with table := .empty }).filter (!isOf "c" ·.1) =
        answers (without "c" standsBefore) { secondBreaks with table := .empty } ∧
      ∃ written deleted, Notification.encode ⟨"k", "v"⟩ = .ok written ∧
        Notification.encode (.deleted "k") = .ok deleted ∧
        bytesOn 0 standsBefore { secondBreaks with table := .empty } = written ++ deleted := by
  have hchannels : ∀ other, other ≠ "c" →
      ∀ id ∈ channelsOf other standsBefore, id ∉ channelsOf "c" standsBefore := by
    intro other hne id hid
    have hzero : "b" = other ∧ 0 = id := by
      simpa [channelsOf, standsBefore, channelOf?, hne.symm] using hid
    rw [← hzero.2]
    decide +kernel
  obtain ⟨hanswers, -, hbytes⟩ := isolated_runAll "c" secondBreaks hchannels
  refine ⟨hchannels, hanswers, _, _, rfl, rfl, ?_⟩
  rw [hbytes 0 (by decide +kernel)]
  decide +kernel

end KeyWatch
