import KeyWatch.Proofs.Notice.OneChannel
import KeyWatch.Proofs.Store.Operation
import KeyWatch.Proofs.Table.Confined

/-!
# Operations on different buckets in either order

What is done on keys of different buckets may be done in either order (`disjoint_commute`): each
operation goes as it would go first, the table is the same in the end, and each operation sends the
same frames in the same order, though the frames of the two change places. All buckets share one
index of clients, whose sets come and go as subscriptions do; it comes out the same because both
orders leave it in step with the buckets.

On the table this is `Table.Confined.comm`. What a store adds is what leaves it, which is stated of
the channels that take everything: there the frames of an operation's notices leave and nothing else
(`Engine.sentOn_deliver_of_willing`), so what leaves is known from the notices alone.
-/

namespace KeyWatch

/-! ## What leaves on a willing channel -/

/-- Whether a notice has a frame, that is, can be encoded (`Notification.encode`). -/
def Notice.hasFrame (n : Notice) : Bool := n.emission?.toOption.isSome

/-- The frames of the notices that are for a channel; what has no frame is never sent. -/
def framesOn (id : ChannelId) (notices : List Notice) : List Emission :=
  (notices.filter (·.channel == id)).filterMap (·.emission?.toOption)

/-- Notices without frames make no difference to what a delivery emits or to the channels behind
it. -/
theorem Channels.deliver_filter_hasFrame (notices : List Notice) (cs : Channels) :
    (deliver (notices.filter Notice.hasFrame) cs).emissions = (deliver notices cs).emissions ∧
      (deliver (notices.filter Notice.hasFrame) cs).channels = (deliver notices cs).channels := by
  induction notices generalizing cs with
  | nil => exact ⟨rfl, rfl⟩
  | cons n rest ih =>
    rw [deliver]
    cases hframe : n.notification.encode with
    | ok frame =>
      have hn : n.hasFrame = true := by
        rw [Notice.hasFrame, Notice.emission?, hframe]
        rfl
      rw [List.filter_cons_of_pos hn, deliver]
      split
      case isTrue => exact ih cs
      case isFalse =>
        obtain ⟨hemissions, hchannels⟩ := ih (cs.send n).channels
        exact ⟨congrArg ((cs.send n).emissions ++ ·) hemissions, hchannels⟩
    | error fault =>
      have hn : ¬n.hasFrame = true := by
        rw [Notice.hasFrame, Notice.emission?, hframe]
        exact Bool.false_ne_true
      have hsend : (cs.send n).emissions = [] ∧ (cs.send n).channels = cs := by
        rw [send, hframe]
        exact ⟨rfl, rfl⟩
      rw [List.filter_cons_of_neg hn]
      split
      case isTrue => exact ih cs
      case isFalse =>
        obtain ⟨hemissions, hchannels⟩ := ih cs
        simp only [hsend, List.nil_append]
        exact ⟨hemissions, hchannels⟩

/-- Of the notices for a channel that have frames each is its frame, and these are `framesOn` the
channel. -/
theorem map_emission?_filter_hasFrame (id : ChannelId) (notices : List Notice) :
    ((notices.filter Notice.hasFrame).filter (·.channel == id)).map Notice.emission? =
      (framesOn id notices).map .ok := by
  rw [List.filter_comm, framesOn]
  induction notices.filter (·.channel == id) with
  | nil => rfl
  | cons n rest ih =>
    cases hframe : n.emission? with
    | ok frame =>
      have hn : n.hasFrame = true := by
        rw [Notice.hasFrame, hframe]
        rfl
      have hsome : n.emission?.toOption = some frame := congrArg Except.toOption hframe
      rw [List.filter_cons_of_pos hn, List.filterMap_cons, hsome]
      exact congrArg₂ List.cons hframe ih
    | error fault =>
      have hn : ¬n.hasFrame = true := by
        rw [Notice.hasFrame, hframe]
        exact Bool.false_ne_true
      have hnone : n.emission?.toOption = none := congrArg Except.toOption hframe
      rw [List.filter_cons_of_neg hn, List.filterMap_cons, hnone]
      exact ih

/-- What the store delivers leaves on a willing channel as the frames of the notices for it
(`framesOn`), and the channel stays willing. -/
theorem Engine.sentOn_deliver_of_willing {e : Engine} {id : ChannelId} (h : e.channels.Willing id)
    (notices : List Notice) :
    (e.deliver notices).sentOn id = e.sentOn id ++ framesOn id notices ∧
      (e.deliver notices).channels.Willing id := by
  obtain ⟨hemissions, hchannels⟩ := Channels.deliver_filter_hasFrame notices e.channels
  obtain ⟨hframes, hafter⟩ := Channels.filter_deliver h (map_emission?_filter_hasFrame id notices)
  rw [sentOn_deliver_eq, (e.deliver_eq notices).1, ← hemissions, ← hchannels, hframes]
  exact ⟨rfl, hafter⟩

/-! ## Operations on keys -/

/-- What is done on keys: their entries are changed or read, or a client subscribes to one or ends
its subscription. -/
inductive KeyedOperation where
  | change (change : Change)
  | readMany (keys : List String)
  | subscribe (key client : String) (channel : ChannelId)
  | unsubscribe (key client : String)
  deriving DecidableEq, Repr

/-- How an operation on keys went, as `KeyedOperation.run` tells it. -/
inductive KeyedAnswer where
  | changed (result : ChangeResult)
  | found (values : List (String × Option String))
  | subscribed (outcome : Except Error SubscribeOutcome)
  | unsubscribed (outcome : UnsubscribeOutcome)

/-- The keys of a change, whether or not they have buckets. -/
def Change.keys : Change → List String
  | write key _ | delete key => [key]
  | writeMany pairs => pairs.map Prod.fst
  | deleteMany keys => keys

namespace KeyedOperation

/-- The keys of an operation, which decide the `buckets` that it touches. -/
def keys : KeyedOperation → List String
  | change c => c.keys
  | readMany keys => keys
  | subscribe key _ _ | unsubscribe key _ => [key]

/-- The buckets that an operation touches; a key without bucket (`route`) touches none. -/
def buckets (op : KeyedOperation) : List BucketIndex := op.keys.filterMap route

/-- What an operation does on a store, and how it goes. -/
def run (op : KeyedOperation) (e : Engine) : KeyedAnswer × Engine :=
  match op with
  | change c =>
    let (result, e) := e.apply c.run
    (.changed result, e)
  | readMany keys => (.found (e.table.readMany keys), e)
  | subscribe key client channel =>
    match e.subscribe key client channel with
    | .ok (outcome, e) => (.subscribed (.ok outcome), e)
    | .error fault => (.subscribed (.error fault), e)
  | unsubscribe key client =>
    let (outcome, e) := e.unsubscribe key client
    (.unsubscribed outcome, e)

/-- What an operation does on a table, as an effect. Subscriptions send no notices. -/
def effect (op : KeyedOperation) (t : Table) : Effect Table KeyedAnswer :=
  match op with
  | change c => (c.run t).map .changed
  | readMany keys => .pure (.found (t.readMany keys)) t
  | subscribe key client channel =>
    match t.subscribe key client channel with
    | .ok (outcome, t) => .pure (.subscribed (.ok outcome)) t
    | .error fault => .pure (.subscribed (.error fault)) t
  | unsubscribe key client =>
    let (outcome, t) := t.unsubscribe key client
    .pure (.unsubscribed outcome) t

/-- On a store an operation goes as on its table (`effect`), which becomes the same. -/
theorem run_eq (op : KeyedOperation) (e : Engine) :
    (op.run e).1 = (op.effect e.table).result ∧
      (op.run e).2.table = (op.effect e.table).state := by
  cases op with
  | change c => exact ⟨rfl, Engine.table_apply e c.run⟩
  | readMany | unsubscribe => exact ⟨rfl, rfl⟩
  | subscribe key client channel =>
    simp only [run, effect, Engine.subscribe]
    cases e.table.subscribe key client channel with
    | ok done => exact ⟨rfl, rfl⟩
    | error fault => exact ⟨rfl, rfl⟩

/-- On a willing channel leave the frames of the notices that an operation sends on the table
(`framesOn`), and the channel stays willing. -/
theorem sentOn_run (op : KeyedOperation) {e : Engine} {id : ChannelId}
    (h : e.channels.Willing id) :
    (op.run e).2.sentOn id = e.sentOn id ++ framesOn id (op.effect e.table).notices ∧
      (op.run e).2.channels.Willing id := by
  cases op with
  | change c =>
    exact Engine.sentOn_deliver_of_willing (e := { e with table := (c.run e.table).state }) h
      (c.run e.table).notices
  | readMany | unsubscribe => exact ⟨(List.append_nil _).symm, h⟩
  | subscribe key client channel =>
    simp only [run, effect, Engine.subscribe]
    cases e.table.subscribe key client channel with
    | ok done => exact ⟨(List.append_nil _).symm, h⟩
    | error fault => exact ⟨(List.append_nil _).symm, h⟩

/-! ## Operations keep to their buckets -/

/-- The bucket of the key is among the `buckets` of an operation on a single key. -/
theorem mem_filterMap_route {key : String} {i : BucketIndex} (h : route key = some i) :
    i ∈ [key].filterMap route :=
  List.mem_filterMap.2 ⟨key, List.mem_cons_self, h⟩

/-- A change keeps to the buckets of its keys (`Table.Confined`). -/
theorem confined_change (c : Change) :
    Table.Confined (· ∈ (change c).buckets) (change c).effect := by
  cases c with
  | write key value =>
    exact (((Table.Confined.write key value).map ChangeResult.written).map
      KeyedAnswer.changed).mono fun _ => mem_filterMap_route
  | writeMany pairs =>
    exact ((Table.Confined.writeMany pairs).map ChangeResult.writtenMany).map KeyedAnswer.changed
  | delete key =>
    exact (((Table.Confined.delete key).map ChangeResult.deleted).map
      KeyedAnswer.changed).mono fun _ => mem_filterMap_route
  | deleteMany keys =>
    exact ((Table.Confined.deleteMany keys).map ChangeResult.deletedMany).map KeyedAnswer.changed

/-- To read keys keeps to their buckets: nothing changes, and what is read is there. -/
theorem confined_readMany (keys : List String) :
    Table.Confined (· ∈ (readMany keys).buckets) (readMany keys).effect where
  consistent _ h := h
  outside _ _ _ := rfl
  notices _ _ _ := rfl
  inside _ _ hsame := hsame
  result t u hsame := by
    show KeyedAnswer.found (t.readMany keys) = .found (u.readMany keys)
    obtain ⟨-, hperm, -⟩ := Table.inKeyOrder_stable (id : String → String) keys
    rw [Table.readMany_eq_map, Table.readMany_eq_map]
    refine congrArg KeyedAnswer.found (List.map_congr_left fun key hkey => ?_)
    cases hr : route key with
    | none => rw [Table.read_of_not_routed hr, Table.read_of_not_routed hr]
    | some i =>
      rw [Table.read_of_route hr, Table.read_of_route hr,
        hsame i (List.mem_filterMap.2 ⟨key, hperm.mem_iff.1 hkey, hr⟩)]

/-- To subscribe to a key keeps to the bucket of the key, where the outcome is decided. -/
theorem confined_subscribe (key client : String) (channel : ChannelId) :
    Table.Confined (route key = some ·) (subscribe key client channel).effect := by
  refine .of_bucket (fun t ht => ?_) (fun hr => ⟨.subscribed (.error (.invalidKey key)), fun t => ?_⟩)
    fun i hr => ⟨fun b => .pure (.subscribed (.ok
      (if !b.contains key then .keyNotFound
      else if b.isSubscribed key client then .alreadySubscribed
      else .subscribed))) (b.subscribe key ⟨client, channel⟩), fun t => ?_⟩
  · rw [effect]
    split
    case h_1 outcome after hs => exact ht.subscribe hs
    case h_2 => exact ht
  · rw [effect, Table.subscribe, hr]
  · rw [effect, Table.subscribe, hr]
    exact ⟨rfl, rfl, fun j => Table.bucket_setBucket t i j _⟩

/-- To end a subscription to a key keeps to the bucket of the key, where the outcome is decided. -/
theorem confined_unsubscribe (key client : String) :
    Table.Confined (route key = some ·) (unsubscribe key client).effect := by
  refine .of_bucket (fun t ht => ht.unsubscribe key client)
    (fun hr => ⟨.unsubscribed .notSubscribed, fun t => ?_⟩)
    fun i hr => ⟨fun b => if b.isSubscribed key client
      then .pure (.unsubscribed .removed) (b.unsubscribe key client)
      else .pure (.unsubscribed .notSubscribed) b, fun t => ?_⟩
  · rw [effect, Table.unsubscribe, hr]
  · rw [effect, Table.unsubscribe, hr]
    simp only
    split
    case isTrue => exact ⟨rfl, rfl, fun j => Table.bucket_setBucket t i j _⟩
    case isFalse =>
      refine ⟨rfl, rfl, fun j => ?_⟩
      split
      case isTrue hj =>
        rw [hj]
        rfl
      case isFalse => rfl

/-- Every operation on keys keeps to the `buckets` of its keys (`Table.Confined`). -/
theorem confined (op : KeyedOperation) : Table.Confined (· ∈ op.buckets) op.effect := by
  cases op with
  | change c => exact confined_change c
  | readMany keys => exact confined_readMany keys
  | subscribe key client channel =>
    exact (confined_subscribe key client channel).mono fun _ => mem_filterMap_route
  | unsubscribe key client =>
    exact (confined_unsubscribe key client).mono fun _ => mem_filterMap_route

end KeyedOperation

/-! ## Either order -/

/-- Two operations on keys that touch different `buckets` of a store in good order may be done in
either order: each goes the same way and the table is the same, with its entries, lists and index.
On each channel that takes everything each of the two lets leave the same frames in the same order,
be it the first or the second, so that the same frames leave in all. -/
theorem disjoint_commute (e : Engine) (h : e.table.Consistent) {first second : KeyedOperation}
    (hapart : ∀ i ∈ first.buckets, i ∉ second.buckets) :
    (second.run (first.run e).2).1 = (second.run e).1 ∧
      (first.run (second.run e).2).1 = (first.run e).1 ∧
      (second.run (first.run e).2).2.table = (first.run (second.run e).2).2.table ∧
      ∀ id, e.channels.Willing id → ∃ firsts seconds,
        (first.run e).2.sentOn id = e.sentOn id ++ firsts ∧
        (second.run (first.run e).2).2.sentOn id = (first.run e).2.sentOn id ++ seconds ∧
        (second.run e).2.sentOn id = e.sentOn id ++ seconds ∧
        (first.run (second.run e).2).2.sentOn id = (second.run e).2.sentOn id ++ firsts ∧
        ((second.run (first.run e).2).2.sentOn id).Perm
          ((first.run (second.run e).2).2.sentOn id) := by
  obtain ⟨hanswer, htable⟩ := first.run_eq e
  obtain ⟨hanswer', htable'⟩ := second.run_eq e
  obtain ⟨hlater, hend⟩ := second.run_eq (first.run e).2
  obtain ⟨hlater', hend'⟩ := first.run_eq (second.run e).2
  rw [htable] at hlater hend
  rw [htable'] at hlater' hend'
  have hback : ∀ i ∈ second.buckets, i ∉ first.buckets := fun i hi hmem => hapart i hmem hi
  obtain ⟨hresult, hnotices, -⟩ := first.confined.undisturbed second.confined hapart e.table
  obtain ⟨hresult', hnotices', -⟩ := second.confined.undisturbed first.confined hback e.table
  refine ⟨?_, ?_, ?_, fun id hid => ?_⟩
  · rw [hlater, hresult', hanswer']
  · rw [hlater', hresult, hanswer]
  · rw [hend, hend']
    exact first.confined.comm second.confined hapart h
  · obtain ⟨hsent, hwilling⟩ := first.sentOn_run hid
    obtain ⟨hsent', hwilling'⟩ := second.sentOn_run hid
    obtain ⟨hthen, -⟩ := second.sentOn_run hwilling
    obtain ⟨hthen', -⟩ := first.sentOn_run hwilling'
    rw [htable, hnotices'] at hthen
    rw [htable', hnotices] at hthen'
    refine ⟨_, _, hsent, hthen, hsent', hthen', ?_⟩
    rw [hthen, hthen', hsent, hsent', List.append_assoc, List.append_assoc]
    exact List.perm_append_comm.append_left _

/-- A store on which two clients watch a key that has an entry, and one of them a key of another
bucket besides. -/
def twoBuckets : Engine :=
  Operation.runAll
    [.openChannel {}, .openChannel {}, .write "k" "v", .subscribe "k" "a" 0, .subscribe "k" "b" 1,
      .subscribe "m" "b" 1]
    { Engine.ofFiles 1 .bare with table := .empty }

/-- On `twoBuckets` the deletion of the key of both takes the first client out of the index and
leaves the second one in. The second is told of it and of a write of its other key, in the order in
which the two are done, and nothing else depends on that order. -/
theorem disjoint_commute_deletedAndWritten :
    let deletion := KeyedOperation.change (.delete "k")
    let writing := KeyedOperation.change (.write "m" "w")
    let told := fun e : Engine => (e.sentOn 1).map (Notification.ofFrame? ∘ Emission.bytes)
    twoBuckets.table.Consistent ∧ (∀ i ∈ deletion.buckets, i ∉ writing.buckets) ∧
      twoBuckets.channels.Willing 1 ∧
      (writing.run (deletion.run twoBuckets).2).2.table =
        (deletion.run (writing.run twoBuckets).2).2.table ∧
      ((writing.run (deletion.run twoBuckets).2).2.sentOn 1).Perm
        ((deletion.run (writing.run twoBuckets).2).2.sentOn 1) ∧
      told (writing.run (deletion.run twoBuckets).2).2 =
        [some (.deleted "k"), some ⟨"m", "w"⟩] ∧
      told (deletion.run (writing.run twoBuckets).2).2 =
        [some ⟨"m", "w"⟩, some (.deleted "k")] := by
  intro deletion writing told
  have hconsistent : twoBuckets.table.Consistent := consistent_runAll (.ofFiles 1 .bare) _
  have hapart : ∀ i ∈ deletion.buckets, i ∉ writing.buckets := by decide +kernel
  have hwilling : twoBuckets.channels.Willing 1 :=
    ⟨{}, by decide +kernel, ⟨nofun, rfl, rfl, rfl⟩⟩
  obtain ⟨-, -, htable, hframes⟩ := disjoint_commute twoBuckets hconsistent hapart
  obtain ⟨-, -, -, -, -, -, hperm⟩ := hframes 1 hwilling
  exact ⟨hconsistent, hapart, hwilling, htable, hperm, by decide +kernel, by decide +kernel⟩

end KeyWatch
