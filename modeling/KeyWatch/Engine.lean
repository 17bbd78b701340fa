import KeyWatch.Backup.Limiter
import KeyWatch.Channel.Names
import KeyWatch.Config
import KeyWatch.Table.Subscription

/-!
# The store

The store is the table with all that its changes reach: the channels that are told of them, the
files that backups and output go to, the console, and what has left on the lines so far. A change of
the table is followed by the delivery of its notices (`Engine.apply`).

A channel that nobody holds any more is closed when its last holder lets it go, and then the bytes
that it holds back leave it. Subscribers are not the only holders, and the store does not know the
others, so it writes down the moments at which subscribers let channels go (`Parting`). Who knows
what is held can then have the rest closed as of these moments (`Engine.settle`).
-/

namespace KeyWatch

/-- A moment at which a subscriber may have let a channel go: how much had left the store by then
(`Engine.sent`). -/
structure Parting where
  channel : ChannelId
  sent : Nat
  deriving DecidableEq, Repr

/-- The table, the notification channels, the files, the backups in flight, what was printed on the
console, what has left on the lines, in order, and what subscribers have let go of meanwhile, the
latest first. -/
structure Engine where
  table : Table
  channels : Channels
  files : FileSystem
  backups : BackupLimiter
  console : String
  sent : List Emission
  partings : List Parting

namespace Engine

/-- The store of an empty table over some files, with room for a number of backups. Operation:
`new`. -/
def ofFiles (maxBackups : Nat) (files : FileSystem) : Engine :=
  ⟨.empty, .empty, files, .ofMax maxBackups, "", [], []⟩

/-- The store that the settings ask for, or their first fault (`Config.fault?`). Operation:
`open`. -/
def «open» (c : Config) (files : FileSystem) : Except Error Engine :=
  match c.fault? files with
  | some fault => .error (.config fault)
  | none => .ok (ofFiles c.maxBackups files)

/-- Lets bytes leave on a line: into their file, or else out of the store (`Engine.sent`). -/
def emit (e : Engine) (out : Emission) : Engine :=
  match out.line with
  | .file cursor => { e with files := e.files.writeAt cursor.node cursor.offset out.bytes }
  | _ => { e with sent := e.sent ++ [out] }

/-- Lets bytes leave one after another (`Engine.emit`). -/
def emitAll (e : Engine) (out : List Emission) : Engine := out.foldl emit e

/-- The store once what has left it was taken away, so that what leaves it next can be told by
itself. -/
def taken (e : Engine) : Engine := { e with sent := [], partings := [] }

/-- Writes down that subscribers let channels go, one after another, at the moment at which the
store is (`Parting`). -/
def part (e : Engine) (ids : List ChannelId) : Engine :=
  { e with partings := ids.reverse.map (⟨·, e.sent.length⟩) ++ e.partings }

/-- Sends notices on their channels (`Channels.deliver`), and lets what they emit leave the
store. -/
def tell (e : Engine) (notices : List Notice) : Engine :=
  let delivery := Channels.deliver notices e.channels
  { e with channels := delivery.channels }.emitAll delivery.emissions

/-- Delivers the notices of a change. Those who are told of a key may be dropped by it, but not
before all of them are told, so the moment is written down behind the notices of each key
(`Engine.part`). -/
def deliver (e : Engine) (notices : List Notice) : Engine :=
  (notices.splitBy fun m n => m.notification.key == n.notification.key).foldl
    (fun e told => (e.tell told).part (told.map Notice.channel)) e

/-- Changes the table and delivers the notices of the change (`Engine.deliver`). What becomes of the
notices does not reach the table or the result. -/
def apply {α : Type} (e : Engine) (f : Table → Effect Table α) : α × Engine :=
  let effect := f e.table
  (effect.result, { e with table := effect.state }.deliver effect.notices)

/-- Opens a notification channel in the store (`Channels.open`). -/
def openChannel (e : Engine) (sink : Sink) : ChannelId × Engine :=
  let (id, channels) := e.channels.open sink
  (id, { e with channels })

/-- Sends a notification on a channel (`Channels.send`), whatever the table says, and tells the
failure. -/
def send (e : Engine) (n : Notice) : Option Error × Engine :=
  let delivery := e.channels.send n
  (delivery.errors.head?, { e with channels := delivery.channels }.emitAll delivery.emissions)

/-- Closes a notification channel, whose bytes leave the store (`Channels.close`). -/
def closeChannel (e : Engine) (id : ChannelId) : Engine :=
  let (out, channels) := e.channels.close id
  { e with channels }.emitAll out

/-- Closes a channel that a subscriber let go as of the moment it did, unless it is held. What it
emits stands before all that left the store since. -/
def settleParting (held : List ChannelId) (e : Engine) (p : Parting) : Engine :=
  if held.contains p.channel then e
  else
    let past := { e with sent := e.sent.take p.sent }.closeChannel p.channel
    { past with sent := past.sent ++ e.sent.drop p.sent }

/-- Closes the notification channels that are not held: those that subscribers let go as of the
moments they did (`settleParting`), beginning with the latest, and then the others. -/
def settle (e : Engine) (held : List ChannelId) : Engine :=
  let e := e.partings.foldl (settleParting held) e
  let (out, channels) := e.channels.settle [] held
  { e with channels, partings := [] }.emitAll out

/-- Subscribes a client to a key (`Table.subscribe`). The channel on which it listened before is one
that may be let go. -/
def subscribe (e : Engine) (key client : String) (channel : ChannelId) :
    Except Error (SubscribeOutcome × Engine) :=
  (e.table.subscribe key client channel).map fun (outcome, table) =>
    (outcome, { e.part (e.table.channelsOf client [key]) with table })

/-- Ends a client's subscription to a key (`Table.unsubscribe`), whose channel may be let go by
it. -/
def unsubscribe (e : Engine) (key client : String) : UnsubscribeOutcome × Engine :=
  let (outcome, table) := e.table.unsubscribe key client
  (outcome, { e.part (e.table.channelsOf client [key]) with table })

/-- Ends every subscription of a client, and counts them (`Table.removeAll`); their channels may be
let go by it. -/
def removeAll (e : Engine) (client : String) : Nat × Engine :=
  let (count, table) := e.table.removeAll client
  (count, { e.part (e.table.channelsOf client (e.table.keysOf client)) with table })

/-- Starts a backup of the table as it is (`Table.snapshot`), which is written on the side
(`BackupLimiter.start`). Operation: `backup`. -/
def backup (e : Engine) (target : Path) : Engine :=
  let (backups, files) := e.backups.start target e.table.snapshot e.files
  { e with backups, files }

/-- Lets backups complete one after another (`BackupLimiter.completeEach`), each named by its place
among those in flight. -/
def completeBackups (places : List Nat) (e : Engine) : Engine :=
  let (backups, files) := BackupLimiter.completeEach places e.backups e.files
  { e with backups, files }

/-- Waits for the backups in flight and gives the first failure (`BackupLimiter.waitAll`).
Operation: `wait_for_backups`. -/
def waitForBackups (e : Engine) : Option Error × Engine :=
  let (failure, backups, files) := e.backups.waitAll e.files
  (failure, { e with backups, files })

/-! ## What the operations leave alone -/

/-- Bytes that leave by `emitAll` change nothing but the files and what has left. -/
theorem emitAll_eq (e : Engine) (out : List Emission) :
    e.emitAll out = { e with files := (e.emitAll out).files, sent := (e.emitAll out).sent } := by
  unfold emitAll
  induction out generalizing e with
  | nil => rfl
  | cons o rest ih =>
    rw [List.foldl_cons, ih]
    unfold emit
    split <;> rfl

/-- Two stores with the same files, which have let the same bytes leave, are alike in both behind an
`emitAll`, whatever their tables and channels are. -/
theorem emitAll_congr {e e' : Engine} (hfiles : e.files = e'.files) (hsent : e.sent = e'.sent)
    (out : List Emission) :
    (e.emitAll out).files = (e'.emitAll out).files ∧
      (e.emitAll out).sent = (e'.emitAll out).sent := by
  unfold emitAll
  induction out generalizing e e' with
  | nil => exact ⟨hfiles, hsent⟩
  | cons o rest ih =>
    rw [List.foldl_cons, List.foldl_cons]
    refine ih ?_ ?_
    · unfold emit
      split <;> simp [hfiles]
    · unfold emit
      split <;> simp [hsent]

/-- Bytes that leave by `emitAll` come behind those that have left on the same lines, for lines that
are no files. -/
theorem filter_sent_emitAll {p : Emission → Bool}
    (h : ∀ cursor bytes, p ⟨.file cursor, bytes⟩ = false) (e : Engine) (out : List Emission) :
    (e.emitAll out).sent.filter p = e.sent.filter p ++ out.filter p := by
  unfold emitAll
  induction out generalizing e with
  | nil => exact (List.append_nil _).symm
  | cons o rest ih =>
    have hemit : (e.emit o).sent.filter p = e.sent.filter p ++ [o].filter p := by
      unfold emit
      split
      case h_1 cursor hline =>
        obtain ⟨line, bytes⟩ := o
        obtain rfl : line = .file cursor := hline
        rw [List.filter_cons_of_neg (Bool.eq_false_iff.1 (h cursor bytes))]
        exact (List.append_nil _).symm
      case h_2 => exact List.filter_append _ _
    rw [List.foldl_cons, ih, hemit, List.append_assoc, ← List.filter_append]
    rfl

/-- Bytes that leave by `emit` do not touch the table. -/
@[simp] theorem table_emit (e : Engine) (out : Emission) : (e.emit out).table = e.table := by
  unfold emit
  split <;> rfl

/-- Bytes that leave by `emit` do not touch the channels. -/
@[simp] theorem channels_emit (e : Engine) (out : Emission) :
    (e.emit out).channels = e.channels := by
  unfold emit
  split <;> rfl

/-- Bytes that leave by `emitAll` do not touch the table. -/
@[simp] theorem table_emitAll (e : Engine) (out : List Emission) :
    (e.emitAll out).table = e.table := by
  unfold emitAll
  induction out generalizing e with
  | nil => rfl
  | cons o rest ih => rw [List.foldl_cons, ih, table_emit]

/-- Bytes that leave by `emitAll` do not touch the channels. -/
@[simp] theorem channels_emitAll (e : Engine) (out : List Emission) :
    (e.emitAll out).channels = e.channels := by
  unfold emitAll
  induction out generalizing e with
  | nil => rfl
  | cons o rest ih => rw [List.foldl_cons, ih, channels_emit]

/-- What is written down by `part` does not touch the table. -/
@[simp] theorem table_part (e : Engine) (ids : List ChannelId) : (e.part ids).table = e.table := rfl

/-- What is written down by `part` does not touch the channels. -/
@[simp] theorem channels_part (e : Engine) (ids : List ChannelId) :
    (e.part ids).channels = e.channels := rfl

/-- Notices that are sent by `tell` do not change the table. -/
@[simp] theorem table_tell (e : Engine) (notices : List Notice) :
    (e.tell notices).table = e.table := by
  simp [tell]

/-- Notices that are delivered by `deliver` do not change the table, whatever becomes of them. -/
@[simp] theorem table_deliver (e : Engine) (notices : List Notice) :
    (e.deliver notices).table = e.table := by
  unfold deliver
  generalize notices.splitBy _ = groups
  induction groups generalizing e with
  | nil => rfl
  | cons told rest ih => rw [List.foldl_cons, ih, table_part, table_tell]

/-- The table behind `apply` is that of the change, whatever becomes of its notices. -/
@[simp] theorem table_apply {α : Type} (e : Engine) (f : Table → Effect Table α) :
    (e.apply f).2.table = (f e.table).state := by
  simp [apply]

/-- Notices that are delivered by `deliver` open and close no channel. -/
@[simp] theorem isClosed_deliver (e : Engine) (notices : List Notice) (id : ChannelId) :
    (e.deliver notices).channels.isClosed id = e.channels.isClosed id := by
  unfold deliver
  generalize notices.splitBy _ = groups
  induction groups generalizing e with
  | nil => rfl
  | cons told rest ih =>
    rw [List.foldl_cons, ih]
    simp [tell]

/-- A change of the table by `apply` opens and closes no channel. -/
@[simp] theorem isClosed_apply {α : Type} (e : Engine) (f : Table → Effect Table α)
    (id : ChannelId) : (e.apply f).2.channels.isClosed id = e.channels.isClosed id := by
  simp [apply]

/-- To open a channel leaves the table as it is. -/
@[simp] theorem table_openChannel (e : Engine) (sink : Sink) :
    (e.openChannel sink).2.table = e.table := rfl

/-- To close a channel leaves the table as it is: its subscribers stay, and are passed over by
`Channels.deliver`. -/
@[simp] theorem table_closeChannel (e : Engine) (id : ChannelId) :
    (e.closeChannel id).table = e.table := by
  simp [closeChannel]

/-- The channels behind `closeChannel` are those of `Channels.close`. -/
@[simp] theorem channels_closeChannel (e : Engine) (id : ChannelId) :
    (e.closeChannel id).channels = (e.channels.close id).2 := by
  simp [closeChannel]

/-- Backups that complete leave the table as it is. -/
@[simp] theorem table_completeBackups (places : List Nat) (e : Engine) :
    (e.completeBackups places).table = e.table := rfl

/-- A channel that is closed by `settleParting` leaves the table as it is. -/
@[simp] theorem table_settleParting (held : List ChannelId) (e : Engine) (p : Parting) :
    (settleParting held e p).table = e.table := by
  unfold settleParting
  split
  · rfl
  · exact table_closeChannel _ _

/-- A channel that is held keeps its sink behind `settleParting`. -/
theorem sink?_settleParting {held : List ChannelId} {id : ChannelId} (h : id ∈ held) (e : Engine)
    (p : Parting) : (settleParting held e p).channels.sink? id = e.channels.sink? id := by
  unfold settleParting
  split
  case isTrue => rfl
  case isFalse hp =>
    have hne : id ≠ p.channel := fun he => hp (List.contains_iff_mem.2 (he ▸ h))
    simp only [channels_closeChannel, Channels.sink?_close, if_neg hne]

/-- The channels that `settle` closes leave the table as it is. -/
@[simp] theorem table_settle (e : Engine) (held : List ChannelId) :
    (e.settle held).table = e.table := by
  unfold settle
  generalize e.partings = partings
  have hpartings : (partings.foldl (settleParting held) e).table = e.table := by
    induction partings generalizing e with
    | nil => rfl
    | cons p rest ih => rw [List.foldl_cons, ih, table_settleParting]
  simpa using hpartings

/-- A channel that is held keeps its sink behind `settle`. -/
theorem sink?_settle {held : List ChannelId} {id : ChannelId} (h : id ∈ held) (e : Engine) :
    (e.settle held).channels.sink? id = e.channels.sink? id := by
  unfold settle
  generalize e.partings = partings
  have hpartings :
      (partings.foldl (settleParting held) e).channels.sink? id = e.channels.sink? id := by
    induction partings generalizing e with
    | nil => rfl
    | cons p rest ih => rw [List.foldl_cons, ih, sink?_settleParting h]
  simp only [channels_emitAll, Channels.settle]
  rw [Channels.sink?_letGo, if_neg fun hgone => hgone.2 h, hpartings]

/-- The table behind `Engine.unsubscribe` is that of `Table.unsubscribe`. -/
@[simp] theorem table_unsubscribe (e : Engine) (key client : String) :
    (e.unsubscribe key client).2.table = (e.table.unsubscribe key client).2 := rfl

/-- To end a subscription leaves the channels as they are; a channel that is let go is closed by
`settle` only. -/
@[simp] theorem channels_unsubscribe (e : Engine) (key client : String) :
    (e.unsubscribe key client).2.channels = e.channels := rfl

/-- The table behind `Engine.removeAll` is that of `Table.removeAll`. -/
@[simp] theorem table_removeAll (e : Engine) (client : String) :
    (e.removeAll client).2.table = (e.table.removeAll client).2 := rfl

/-- To end a client's subscriptions leaves the channels as they are; those that are let go are
closed by `settle` only. -/
@[simp] theorem channels_removeAll (e : Engine) (client : String) :
    (e.removeAll client).2.channels = e.channels := rfl

/-- A subscription that succeeds in the store is one of the table (`Table.subscribe`), and changes
nothing else but what is written down of the channel that may be let go. -/
theorem subscribe_eq_ok {e e' : Engine} {key client : String} {channel : ChannelId}
    {outcome : SubscribeOutcome} (h : e.subscribe key client channel = .ok (outcome, e')) :
    ∃ table, e.table.subscribe key client channel = .ok (outcome, table) ∧
      e' = { e.part (e.table.channelsOf client [key]) with table } := by
  unfold subscribe at h
  cases ht : e.table.subscribe key client channel with
  | error _ =>
    rw [ht] at h
    cases h
  | ok done =>
    rw [ht] at h
    cases h
    exact ⟨done.2, rfl, rfl⟩

/-- A subscription that fails in the store fails in the table, with the same fault. -/
theorem subscribe_eq_error {e : Engine} {key client : String} {channel : ChannelId} {fault : Error}
    (h : e.subscribe key client channel = .error fault) :
    e.table.subscribe key client channel = .error fault := by
  unfold subscribe at h
  cases ht : e.table.subscribe key client channel with
  | error _ =>
    rw [ht] at h
    cases h
    rfl
  | ok _ =>
    rw [ht] at h
    cases h

end Engine

end KeyWatch
