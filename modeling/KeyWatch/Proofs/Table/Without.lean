import KeyWatch.Proofs.Table.Contents

/-!
# A table without a client

A client that leaves takes its subscriptions with it, and `Table.without` is the table that it
leaves behind. Whoever else uses the table sees no difference. What is done on the table without the
client goes as it goes on the whole table, is told to the same subscribers but the client, and ends
in what the client leaves of the table that the whole one becomes. For the operations on entries one
equation between effects says so (`Table.Apart.write_without` and its likes), and for the
subscriptions of others one between results (`Table.Consistent.subscribe_without` and its likes).
What the client does for itself changes nothing of what it leaves
(`Table.Consistent.without_subscribe` and its likes).

Subscribers are told on channels and not by name. So the client's channels have to be its own
(`Table.Apart`), and then the notices that the client misses are those on its channels.
-/

namespace KeyWatch

/-- The table that a client leaves behind when it goes (`removeAll`). -/
def Table.without (t : Table) (client : String) : Table := (t.removeAll client).2

/-- What is left of an effect without a client: its notices are those on channels that are not the
client's, and the client is not in the table after it (`Table.without`). -/
def Effect.without {α : Type} (e : Effect Table α) (client : String) (own : List ChannelId) :
    Effect Table α :=
  ⟨e.result, e.notices.filter (·.channel ∉ own), e.state.without client⟩

/-- A table in good order, in which a client listens on channels of its own and on no others. Then
the notices that the client misses are told by their channels. -/
structure Table.Apart (client : String) (own : List ChannelId) (t : Table) : Prop where
  consistent : t.Consistent
  channels : ∀ key, ∀ sub ∈ (t.listOf key).subscribers, sub.channel ∈ own ↔ sub.client = client

/-! ## Lists and buckets -/

/-- The notices to a list without a client are those to the list, but on the channels of the client,
if it has channels of its own. -/
theorem SubscriberList.notices_remove {l : SubscriberList} {client : String}
    {own : List ChannelId} (h : ∀ sub ∈ l.subscribers, sub.channel ∈ own ↔ sub.client = client)
    (n : Notification) :
    (l.remove client).notices n = (l.notices n).filter (·.channel ∉ own) := by
  simp only [notices, remove, List.filter_map]
  congr 1
  refine List.filter_congr fun sub hsub => ?_
  rw [Function.comp_apply, bne, Bool.eq_iff_iff]
  simp [h sub hsub]

namespace Bucket

variable {b b' : Bucket}

/-- Buckets with the same entries have the same entries behind a `put`. -/
theorem entries_put_congr (h : b.entries = b'.entries) (key value : String) :
    (b.put key value).state.entries = (b'.put key value).state.entries := by
  have hc : b.contains key = b'.contains key := by rw [contains, contains, h]
  simp only [put, hc, h]
  cases b'.contains key <;> rfl

/-- Buckets with the same entries have the same entries behind a `remove`. -/
theorem entries_remove_congr (h : b.entries = b'.entries) (key : String) :
    (b.remove key).state.entries = (b'.remove key).state.entries := by
  have hc : b.contains key = b'.contains key := by rw [contains, contains, h]
  simp only [remove, hc, h]
  cases b'.contains key with
  | true => rfl
  | false => exact h

end Bucket

namespace Table

variable {t u : Table} {client other : String} {own : List ChannelId}

/-- Tables with the same entries keep the same when a bucket is replaced in both by buckets with the
same. -/
theorem entries_setBucket_congr (h : ∀ i, (t.bucket i).entries = (u.bucket i).entries)
    {b b' : Bucket} (hb : b.entries = b'.entries) (i j : BucketIndex) :
    ((t.setBucket i b).bucket j).entries = ((u.setBucket i b').bucket j).entries := by
  rw [bucket_setBucket, bucket_setBucket]
  split
  case isTrue => exact hb
  case isFalse => exact h j

/-- Tables with the same entries have the same entries behind a `write`, whoever is subscribed. -/
theorem entries_write_congr (h : ∀ i, (t.bucket i).entries = (u.bucket i).entries)
    (key value : String) (i : BucketIndex) :
    ((t.write key value).state.bucket i).entries =
      ((u.write key value).state.bucket i).entries := by
  unfold write
  cases route key with
  | none => exact h i
  | some j => exact entries_setBucket_congr h (Bucket.entries_put_congr (h j) key value) j i

/-- Tables with the same entries have the same entries behind a `delete`, whoever is subscribed. -/
theorem entries_delete_congr (h : ∀ i, (t.bucket i).entries = (u.bucket i).entries)
    (key : String) (i : BucketIndex) :
    ((t.delete key).state.bucket i).entries = ((u.delete key).state.bucket i).entries := by
  unfold delete
  cases route key with
  | none => exact h i
  | some j => exact entries_setBucket_congr h (Bucket.entries_remove_congr (h j) key) j i

/-- A subscription to a key that has a bucket is not refused. -/
theorem exists_subscribe (t : Table) {key : String} {i : BucketIndex} (hr : route key = some i)
    (client : String) (channel : ChannelId) :
    ∃ outcome t', t.subscribe key client channel = .ok (outcome, t') := by
  rw [subscribe, hr]
  exact ⟨_, _, rfl⟩

/-! ## What a client leaves behind -/

/-- A client leaves the entries of every bucket as they are (`without`). -/
theorem entries_without (t : Table) (client : String) (i : BucketIndex) :
    ((t.without client).bucket i).entries = (t.bucket i).entries :=
  entries_removeAll t client i

/-- A client leaves every key with an entry that has one (`without`). -/
theorem contains_without (t : Table) (client key : String) :
    (t.without client).contains key = t.contains key :=
  contains_eq_of_entries (entries_without t client) key

/-- The index without a client has the others as it had them. -/
theorem find?_keySets_without (t : Table) (h : other ≠ client) :
    (t.without client).index.keySets.find? other = t.index.keySets.find? other := by
  rw [without, index_removeAll, ClientIndex.drop, OrderedMap.find?_erase, if_neg h]

/-- The others have the same keys in the table without a client as in the whole one. -/
theorem keysOf_without (t : Table) (h : other ≠ client) :
    (t.without client).keysOf other = t.keysOf other := by
  rw [keysOf, keysOf, ClientIndex.keysOf, ClientIndex.keysOf, ClientIndex.keySet,
    ClientIndex.keySet, find?_keySets_without t h]

namespace Consistent

/-- A consistent table without a client is consistent. -/
theorem without (h : t.Consistent) (client : String) : (t.without client).Consistent :=
  h.removeAll client

/-- The list of a key in the table without a client is the one of the whole table without the client
(`SubscriberList.remove`). -/
theorem listOf_without (h : t.Consistent) (client key : String) :
    (t.without client).listOf key = (t.listOf key).remove client :=
  listOf_removeAll h client key

/-- The others are in the lists of the table without a client in which they are in the whole one. -/
theorem mem_listOf_without (h : t.Consistent) (hne : other ≠ client) (key : String) :
    other ∈ ((t.without client).listOf key).clients ↔ other ∈ (t.listOf key).clients := by
  rw [h.listOf_without, SubscriberList.mem_clients_remove, and_iff_left hne]

/-- The table that a client leaves behind is the consistent one with the same entries and the lists
of the others. -/
theorem eq_without (h : t.Consistent) (hu : u.Consistent)
    (hentries : ∀ i, (u.bucket i).entries = (t.bucket i).entries)
    (hlists : ∀ key, u.listOf key = (t.listOf key).remove client) : u = t.without client := by
  refine hu.ext (h.without client) (fun i => ?_) fun key => ?_
  · rw [hentries, entries_without]
  · rw [hlists, h.listOf_without]

/-- A client is gone (`without`) once its keys were taken from the index and it is dropped from
them, be it from others besides. -/
theorem unlink_eq_without (h : t.Consistent) {keys : List String}
    (hkeys : ∀ key ∈ t.keysOf client, key ∈ keys) :
    ((t.takeKeys client).2.unlink client keys).2 = t.without client := by
  refine h.eq_without (h.unlink hkeys) (fun i => ?_) fun key => ?_
  · exact entries_unlink (t.takeKeys client).2 client keys i
  · exact h.listOf_unlink hkeys key

/-- To `write` a pair and to leave out a client can be done in any order: the tables are the
same. -/
theorem state_write_without (h : t.Consistent) (client key value : String) :
    ((t.without client).write key value).state = (t.write key value).state.without client := by
  refine (h.write key value).eq_without ((h.without client).write key value)
    (entries_write_congr (entries_without t client) key value) fun k => ?_
  rw [listOf_write, listOf_write, h.listOf_without]

/-- To `delete` a key and to leave out a client can be done in any order: the tables are the
same. -/
theorem state_delete_without (h : t.Consistent) (client key : String) :
    ((t.without client).delete key).state = (t.delete key).state.without client := by
  refine (h.delete key).eq_without ((h.without client).delete key)
    (entries_delete_congr (entries_without t client) key) fun k => ?_
  rw [listOf_delete, listOf_delete, contains_without, h.listOf_without]
  split <;> rfl

/-- To write a batch and to leave out a client can be done in any order (`state_each_comm`). -/
theorem state_writeMany_without (h : t.Consistent) (client : String)
    (pairs : List (String × String)) :
    ((t.without client).writeMany pairs).state = (t.writeMany pairs).state.without client := by
  rw [writeMany_eq_each, writeMany_eq_each]
  exact Effect.state_each_comm (f := writePair) (fun pair u hu => hu.write pair.1 pair.2)
    (fun pair u hu => hu.state_write_without client pair.1 pair.2) _ h

/-- To delete a batch and to leave out a client can be done in any order (`state_each_comm`). -/
theorem state_deleteMany_without (h : t.Consistent) (client : String) (keys : List String) :
    ((t.without client).deleteMany keys).state = (t.deleteMany keys).state.without client := by
  rw [deleteMany_eq_each, deleteMany_eq_each]
  exact Effect.state_each_comm (f := deleteKey) (fun key u hu => hu.delete key)
    (fun key u hu => hu.state_delete_without client key) _ h

end Consistent

namespace Apart

/-- A client has its channels to itself (`Apart`) in a consistent table in which nobody is
subscribed who was not before. -/
theorem of_mem (h : t.Apart client own) (hu : u.Consistent)
    (hmem : ∀ key, ∀ sub ∈ (u.listOf key).subscribers, sub ∈ (t.listOf key).subscribers) :
    u.Apart client own where
  consistent := hu
  channels key sub hsub := h.channels key sub (hmem key sub hsub)

/-! ## Operations on entries -/

/-- To `write` a pair leaves a client its channels to itself. -/
theorem write (h : t.Apart client own) (key value : String) :
    (t.write key value).state.Apart client own :=
  h.of_mem (h.consistent.write key value) fun k _ hsub => listOf_write t key value k ▸ hsub

/-- To `delete` a key leaves a client its channels to itself. -/
theorem delete (h : t.Apart client own) (key : String) :
    (t.delete key).state.Apart client own :=
  h.of_mem (h.consistent.delete key) fun _ _ => mem_listOf_of_delete

/-- To write a batch leaves a client its channels to itself. -/
theorem writeMany (h : t.Apart client own) (pairs : List (String × String)) :
    (t.writeMany pairs).state.Apart client own :=
  h.of_mem (h.consistent.writeMany pairs) fun k _ hsub => listOf_writeMany t pairs k ▸ hsub

/-- To delete a batch leaves a client its channels to itself. -/
theorem deleteMany (h : t.Apart client own) (keys : List String) :
    (t.deleteMany keys).state.Apart client own :=
  h.of_mem (h.consistent.deleteMany keys) fun _ _ => mem_listOf_of_deleteMany

/-- The notices to a list of the table without a client are those to the list of the whole table,
but on the channels of the client. -/
theorem notices_without (h : t.Apart client own) (key : String) (n : Notification) :
    ((t.without client).listOf key).notices n =
      ((t.listOf key).notices n).filter (·.channel ∉ own) := by
  rw [h.consistent.listOf_without]
  exact SubscriberList.notices_remove (h.channels key) n

/-- To `write` a pair into the table without a client is what is left of writing it into the whole
table (`Effect.without`). -/
theorem write_without (h : t.Apart client own) (key value : String) :
    (t.without client).write key value = (t.write key value).without client own := by
  refine Effect.ext ?_ ?_ ?_
  · show _ = (t.write key value).result
    rw [result_write, result_write, contains_without]
  · show _ = (t.write key value).notices.filter (·.channel ∉ own)
    rw [notices_write, notices_write, h.notices_without]
  · exact h.consistent.state_write_without client key value

/-- To `delete` a key from the table without a client is what is left of deleting it from the whole
table (`Effect.without`). -/
theorem delete_without (h : t.Apart client own) (key : String) :
    (t.without client).delete key = (t.delete key).without client own := by
  refine Effect.ext ?_ ?_ ?_
  · show _ = (t.delete key).result
    rw [result_delete, result_delete, contains_without]
  · show _ = (t.delete key).notices.filter (·.channel ∉ own)
    rw [notices_delete, notices_delete, contains_without, h.notices_without]
    split <;> rfl
  · exact h.consistent.state_delete_without client key

/-- A row of operations on the table without a client is what is left of the row on the whole table,
if each operation is and leaves the client its channels to itself. -/
theorem each_without {α κ : Type} {f : κ → Table → Effect Table α}
    (hkeep : ∀ k t, t.Apart client own → (f k t).state.Apart client own)
    (hstep : ∀ k t, t.Apart client own → f k (t.without client) = (f k t).without client own)
    (items : List κ) (h : t.Apart client own) :
    Effect.each f items (t.without client) = (Effect.each f items t).without client own := by
  induction items generalizing t with
  | nil => rfl
  | cons k rest ih =>
    have hrest : Effect.each f rest (f k (t.without client)).state =
        (Effect.each f rest (f k t).state).without client own := by
      rw [hstep k t h]
      exact ih (hkeep k t h)
    rw [Effect.each_cons, Effect.each_cons, hrest, hstep k t h]
    exact Effect.ext rfl (List.filter_append ..).symm rfl

/-- To write a batch into the table without a client is what is left of writing it into the whole
table (`each_without`). -/
theorem writeMany_without (h : t.Apart client own) (pairs : List (String × String)) :
    (t.without client).writeMany pairs = (t.writeMany pairs).without client own := by
  rw [writeMany_eq_each, writeMany_eq_each]
  refine each_without (f := writePair) (fun pair t ht => ht.write pair.1 pair.2)
    (fun pair t ht => ?_) _ h
  rw [writePair, ht.write_without]
  rfl

/-- To delete a batch from the table without a client is what is left of deleting it from the whole
table (`each_without`). -/
theorem deleteMany_without (h : t.Apart client own) (keys : List String) :
    (t.without client).deleteMany keys = (t.deleteMany keys).without client own := by
  rw [deleteMany_eq_each, deleteMany_eq_each]
  refine each_without (f := deleteKey) (fun key t ht => ht.delete key) (fun key t ht => ?_) _ h
  rw [deleteKey, ht.delete_without]
  rfl

end Apart

/-! ## Subscriptions -/

namespace Consistent

/-- Others `subscribe` in the table without a client with the same result as in the whole table, and
to leave the client out afterwards leads to the same table. -/
theorem subscribe_without (h : t.Consistent) (hne : other ≠ client) (key : String)
    (channel : ChannelId) :
    (t.without client).subscribe key other channel =
      (t.subscribe key other channel).map fun done => (done.1, done.2.without client) := by
  cases hr : route key with
  | none =>
    rw [Table.subscribe, Table.subscribe, hr]
    rfl
  | some i =>
    obtain ⟨outcome, t', ht⟩ := exists_subscribe t hr other channel
    obtain ⟨outcome', u, hu⟩ := exists_subscribe (t.without client) hr other channel
    have houtcome : outcome' = outcome := by
      rw [outcome_of_subscribe ht, outcome_of_subscribe hu, contains_without]
      simp only [h.mem_listOf_without hne]
    have hstate : u = t'.without client := by
      refine (h.subscribe ht).eq_without ((h.without client).subscribe hu) (fun i => ?_) fun k => ?_
      · rw [entries_of_subscribe hu, entries_of_subscribe ht, entries_without]
      · rw [listOf_of_subscribe hu, listOf_of_subscribe ht]
        split
        case isTrue => rw [h.listOf_without, SubscriberList.remove_add_of_ne _ hne]
        case isFalse => exact h.listOf_without client k
    rw [ht, hu, houtcome, hstate]
    rfl

/-- Others `unsubscribe` in the table without a client with the same result as in the whole table,
and to leave the client out afterwards leads to the same table. -/
theorem unsubscribe_without (h : t.Consistent) (hne : other ≠ client) (key : String) :
    (t.without client).unsubscribe key other =
      ((t.unsubscribe key other).1, (t.unsubscribe key other).2.without client) := by
  refine Prod.ext ?_ ?_
  · simp only [outcome_unsubscribe, h.mem_listOf_without hne]
  · refine (h.unsubscribe key other).eq_without ((h.without client).unsubscribe key other)
      (fun i => ?_) fun k => ?_
    · rw [entries_unsubscribe, entries_unsubscribe, entries_without]
    · rw [listOf_unsubscribe, listOf_unsubscribe]
      split
      case isTrue => rw [h.listOf_without, SubscriberList.remove_comm]
      case isFalse => exact h.listOf_without client k

/-- Others leave the table without a client by `removeAll` with the same count as the whole table,
and to leave the client out afterwards leads to the same table. -/
theorem removeAll_without (h : t.Consistent) (hne : other ≠ client) :
    (t.without client).removeAll other =
      ((t.removeAll other).1, (t.removeAll other).2.without client) := by
  refine Prod.ext ?_ ?_
  · rw [(h.without client).count_removeAll, h.count_removeAll, keysOf_without t hne]
  · refine (h.removeAll other).eq_without ((h.without client).removeAll other)
      (fun i => ?_) fun k => ?_
    · rw [entries_removeAll, entries_removeAll, entries_without]
    · rw [listOf_removeAll (h.without client), listOf_removeAll h, h.listOf_without,
        SubscriberList.remove_comm]

/-- What a client leaves behind does not show to what it subscribed last: `without` is the same
before and after. -/
theorem without_subscribe (h : t.Consistent) {key : String} {channel : ChannelId}
    {outcome : SubscribeOutcome} {t' : Table}
    (hs : t.subscribe key client channel = .ok (outcome, t')) :
    t'.without client = t.without client := by
  have h' := h.subscribe hs
  refine h.eq_without (h'.without client) (fun i => ?_) fun k => ?_
  · rw [entries_without, entries_of_subscribe hs]
  · rw [h'.listOf_without, listOf_of_subscribe hs]
    split
    case isTrue hk => rw [hk, SubscriberList.remove_add _ ⟨client, channel⟩]
    case isFalse => rfl

/-- What a client leaves behind does not show which subscription it ended last: `without` is the
same before and after. -/
theorem without_unsubscribe (h : t.Consistent) (key : String) :
    (t.unsubscribe key client).2.without client = t.without client := by
  have h' := h.unsubscribe key client
  refine h.eq_without (h'.without client) (fun i => ?_) fun k => ?_
  · rw [entries_without, entries_unsubscribe]
  · rw [h'.listOf_without, listOf_unsubscribe]
    split
    case isTrue hk => rw [hk, SubscriberList.remove_remove]
    case isFalse => rfl

/-- Who left before leaves nothing else behind: `without` twice is `without` once. -/
theorem without_without (h : t.Consistent) (client : String) :
    (t.without client).without client = t.without client := by
  refine h.eq_without ((h.without client).without client) (fun i => ?_) fun k => ?_
  · rw [entries_without, entries_without]
  · rw [(h.without client).listOf_without, h.listOf_without, SubscriberList.remove_remove]

end Consistent

namespace Apart

/-- A client has its channels to itself as long as it subscribes on them and others on others. -/
theorem subscribe (h : t.Apart client own) {key c : String} {channel : ChannelId}
    {outcome : SubscribeOutcome} {t' : Table}
    (hs : t.subscribe key c channel = .ok (outcome, t'))
    (hchannel : channel ∈ own ↔ c = client) : t'.Apart client own where
  consistent := h.consistent.subscribe hs
  channels k sub hsub := by
    rw [listOf_of_subscribe hs] at hsub
    split at hsub
    case isTrue =>
      rcases SubscriberList.mem_add hsub with rfl | hold
      · exact hchannel
      · exact h.channels key sub hold
    case isFalse => exact h.channels k sub hsub

/-- The end of a subscription leaves a client its channels to itself. -/
theorem unsubscribe (h : t.Apart client own) (key c : String) :
    (t.unsubscribe key c).2.Apart client own := by
  refine h.of_mem (h.consistent.unsubscribe key c) fun k sub hsub => ?_
  rw [listOf_unsubscribe] at hsub
  split at hsub
  case isTrue hk => exact hk ▸ (List.mem_filter.1 hsub).1
  case isFalse => exact hsub

/-- The end of anybody's subscriptions leaves a client its channels to itself. -/
theorem removeAll (h : t.Apart client own) (c : String) :
    (t.removeAll c).2.Apart client own := by
  refine h.of_mem (h.consistent.removeAll c) fun k sub hsub => ?_
  rw [listOf_removeAll h.consistent] at hsub
  exact (List.mem_filter.1 hsub).1

end Apart

end Table

end KeyWatch
