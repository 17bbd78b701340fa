import KeyWatch.Proofs.Table.Batch

/-!
# The lists of subscribers and the index agree

A subscription is written down twice: in the list of its key, in the key's bucket, and in the index,
under its client. `Table.Consistent` says that the two agree and that neither keeps anything that is
empty, doubled or in the wrong bucket. Every operation on the table keeps it, and each operation is
described by what it does to the list of a key (`Table.listOf`). A consistent table is determined by
its entries and these lists (`Table.Consistent.ext`).
-/

namespace KeyWatch

/-- A bucket in good order: its keys are distinct, its entries and its lists belong to it, no list
is empty, and no client is twice in a list. This is the part of `Table.Consistent` that concerns one
bucket. -/
structure Bucket.Tidy (i : BucketIndex) (b : Bucket) : Prop where
  keysDistinct : (b.entries.map Entry.key).Nodup
  entriesRouted : ∀ e ∈ b.entries, route e.key = some i
  listsRouted : ∀ key list, b.subscribers.find? key = some list → route key = some i
  listsNonempty : ∀ key list, b.subscribers.find? key = some list → list ≠ .empty
  clientsDistinct : ∀ key list, b.subscribers.find? key = some list → list.clients.Nodup

/-- An index in good order: no client has an empty set of keys, so a client that watches nothing is
not in it. -/
def ClientIndex.Tidy (index : ClientIndex) : Prop :=
  ∀ client keys, index.keySets.find? client = some keys → keys ≠ .empty

/-- Buckets and index are in good order (`Bucket.Tidy`, `ClientIndex.Tidy`), and a client is in the
list of a key exactly if the index has the key under the client. -/
structure Table.Consistent (t : Table) : Prop where
  buckets : ∀ i, (t.bucket i).Tidy i
  index : t.index.Tidy
  linked : ∀ client key, client ∈ t.subscribersOf key ↔ t.index.contains client key = true

/-! ## Buckets -/

namespace Bucket.Tidy

variable {i : BucketIndex} {b : Bucket}

/-- The `empty` bucket is in good order, whatever its number. -/
theorem empty (i : BucketIndex) : Bucket.empty.Tidy i where
  keysDistinct := List.nodup_nil
  entriesRouted := nofun
  listsRouted := nofun
  listsNonempty := nofun
  clientsDistinct := nofun

/-- A bucket is in good order if its entries are and each of its lists is, with the three conditions
on a list taken together. -/
theorem of_lists {b' : Bucket} (hk : (b'.entries.map Entry.key).Nodup)
    (he : ∀ e ∈ b'.entries, route e.key = some i)
    (hl : ∀ key list, b'.subscribers.find? key = some list →
      route key = some i ∧ list ≠ .empty ∧ list.clients.Nodup) : b'.Tidy i where
  keysDistinct := hk
  entriesRouted := he
  listsRouted key list h := (hl key list h).1
  listsNonempty key list h := (hl key list h).2.1
  clientsDistinct key list h := (hl key list h).2.2

/-- The three conditions on a list of a bucket in good order, taken together (`of_lists` is the way
back). -/
theorem lists (h : b.Tidy i) {key : String} {list : SubscriberList}
    (hl : b.subscribers.find? key = some list) :
    route key = some i ∧ list ≠ .empty ∧ list.clients.Nodup :=
  ⟨h.listsRouted key list hl, h.listsNonempty key list hl, h.clientsDistinct key list hl⟩

/-- No client stands twice in the subscribers of a key, also of one that nobody watches. -/
theorem nodup_clients (h : b.Tidy i) (key : String) : (b.subscribersOf key).clients.Nodup := by
  unfold subscribersOf
  cases hl : b.subscribers.find? key with
  | none => exact List.nodup_nil
  | some list => exact h.clientsDistinct key list hl

/-- The list of a key is in a bucket in good order unless it is empty. So `subscribersOf` says all
of the lists. -/
theorem find?_eq (h : b.Tidy i) (key : String) :
    b.subscribers.find? key =
      if b.subscribersOf key = .empty then none else some (b.subscribersOf key) := by
  unfold subscribersOf
  cases hl : b.subscribers.find? key with
  | none => rfl
  | some list => exact (if_neg (h.listsNonempty key list hl)).symm

/-- A key of another bucket has no subscribers in a bucket in good order. -/
theorem subscribersOf_of_route_ne (h : b.Tidy i) {key : String} (hr : route key ≠ some i) :
    b.subscribersOf key = .empty := by
  unfold subscribersOf
  cases hl : b.subscribers.find? key with
  | none => rfl
  | some list => exact absurd (h.listsRouted key list hl) hr

/-- To `put` a value for a key of the bucket keeps the bucket in good order. -/
theorem put (h : b.Tidy i) {key : String} (hr : route key = some i) (value : String) :
    (b.put key value).state.Tidy i := by
  have hmem : ∀ k ∈ (b.put key value).state.entries.map Entry.key, route k = some i := by
    rw [keys_put]
    intro k hk
    have hkey : k ∈ b.entries.map Entry.key ∨ k = key := by
      split at hk
      · exact .inl hk
      · simpa using hk
    rcases hkey with hk | rfl
    · obtain ⟨e, he, rfl⟩ := List.mem_map.1 hk
      exact h.entriesRouted e he
    · exact hr
  refine of_lists ?_ (fun e he => hmem _ (List.mem_map_of_mem he)) fun k list hl => ?_
  · rw [keys_put]
    split
    · exact h.keysDistinct
    · next hc =>
      refine List.nodup_append.2 ⟨h.keysDistinct, by simp, ?_⟩
      rintro k hk _ (_ | ⟨_, ⟨⟩⟩) rfl
      exact hc (contains_iff.2 hk)
  · rw [subscribers_put] at hl
    exact h.lists hl

/-- To `remove` a key keeps the bucket in good order: its entry goes, and its list with it. -/
theorem remove (h : b.Tidy i) (key : String) : (b.remove key).state.Tidy i := by
  by_cases hc : b.contains key = true
  · have hstate : (b.remove key).state =
        { entries := b.entries.filter (·.key != key), subscribers := b.subscribers.erase key } := by
      rw [Bucket.remove, if_pos hc]
    refine of_lists ?_ ?_ fun k list hl => ?_
    · rw [keys_remove]
      exact h.keysDistinct.filter _
    · rw [hstate]
      exact fun e he => h.entriesRouted e (List.mem_filter.1 he).1
    · rw [hstate, OrderedMap.find?_erase] at hl
      split at hl
      · cases hl
      · exact h.lists hl
  · rw [remove_of_not_contains hc]
    exact h

/-- To `subscribe` a client to a key of the bucket keeps the bucket in good order. -/
theorem subscribe (h : b.Tidy i) {key : String} (hr : route key = some i) (s : Subscriber) :
    (b.subscribe key s).Tidy i := by
  refine of_lists h.keysDistinct h.entriesRouted fun k list hl => ?_
  rw [Bucket.subscribe, OrderedMap.find?_insert] at hl
  split at hl
  case isFalse => exact h.lists hl
  case isTrue hk =>
    obtain rfl := Option.some.inj hl
    have hnodup : ((b.subscribersOf key).add s).clients.Nodup :=
      SubscriberList.nodup_clients_add (h.nodup_clients key) s
    have hs : s.client ∈ ((b.subscribersOf key).add s).clients := by
      rw [SubscriberList.clients_add]
      split
      · assumption
      · simp
    refine ⟨hk ▸ hr, fun he => ?_, hnodup⟩
    rw [he] at hs
    cases hs

/-- To `unsubscribe` a client keeps the bucket in good order, since a list that becomes empty is
dropped. -/
theorem unsubscribe (h : b.Tidy i) {key : String} (client : String) :
    (b.unsubscribe key client).Tidy i := by
  refine of_lists h.keysDistinct h.entriesRouted fun k list hl => ?_
  simp only [Bucket.unsubscribe] at hl
  split at hl
  case isTrue =>
    rw [OrderedMap.find?_erase] at hl
    split at hl
    · cases hl
    · exact h.lists hl
  case isFalse hleft =>
    rw [OrderedMap.find?_insert] at hl
    split at hl
    case isFalse => exact h.lists hl
    case isTrue hk =>
      obtain rfl := Option.some.inj hl
      have hne : (b.subscribersOf key).remove client ≠ .empty :=
        fun he => hleft (SubscriberList.isEmpty_iff.2 he)
      refine ⟨?_, hne, ?_⟩
      · rw [hk]
        refine Decidable.byContradiction fun hr => hne ?_
        rw [h.subscribersOf_of_route_ne hr]
        rfl
      · exact SubscriberList.nodup_clients_remove (h.nodup_clients key) client

end Bucket.Tidy

/-! ## The index -/

namespace ClientIndex.Tidy

variable {index : ClientIndex}

/-- The `empty` index is in good order. -/
theorem empty : ClientIndex.empty.Tidy := nofun

/-- The set of a client is in an index in good order unless it is empty. So `keySet` says all of the
index. -/
theorem find?_eq (h : index.Tidy) (client : String) :
    index.keySets.find? client =
      if index.keySet client = .empty then none else some (index.keySet client) := by
  unfold keySet
  cases hk : index.keySets.find? client with
  | none => rfl
  | some keys => exact (if_neg (h client keys hk)).symm

/-- To `insert` a key keeps the index in good order. -/
theorem insert (h : index.Tidy) (client key : String) : (index.insert client key).Tidy := by
  intro c keys hk
  rw [ClientIndex.insert, OrderedMap.find?_insert] at hk
  split at hk
  case isFalse => exact h c keys hk
  case isTrue =>
    obtain rfl := Option.some.inj hk
    intro he
    have hfind : ((index.keySet client).insert key ()).find? key = some () := by
      rw [OrderedMap.find?_insert, if_pos rfl]
    rw [he] at hfind
    cases hfind

/-- To `remove` a key keeps the index in good order, since a client without keys is dropped. -/
theorem remove (h : index.Tidy) (client key : String) : (index.remove client key).Tidy := by
  intro c keys hk
  simp only [ClientIndex.remove] at hk
  split at hk
  case isTrue =>
    rw [OrderedMap.find?_erase] at hk
    split at hk
    · cases hk
    · exact h c keys hk
  case isFalse hleft =>
    rw [OrderedMap.find?_insert] at hk
    split at hk
    case isFalse => exact h c keys hk
    case isTrue =>
      obtain rfl := Option.some.inj hk
      exact fun he => hleft (List.isEmpty_iff.2 (OrderedMap.eq_empty_iff.1 he))

/-- To `drop` a client keeps the index in good order. -/
theorem drop (h : index.Tidy) (client : String) : (index.drop client).Tidy := by
  intro c keys hk
  rw [ClientIndex.drop, OrderedMap.find?_erase] at hk
  split at hk
  · cases hk
  · exact h c keys hk

/-- To `forget` a key of some clients keeps the index in good order, by one `remove` after
another. -/
theorem forget (h : index.Tidy) (key : String) (clients : List String) :
    (Table.forget index key clients).Tidy := by
  induction clients generalizing index with
  | nil => exact h
  | cons c rest ih => exact ih (h.remove c key)

/-- Indexes in good order that have the same keys under every client (`contains`) are the same. -/
theorem ext {index' : ClientIndex} (h : index.Tidy) (h' : index'.Tidy)
    (hc : ∀ client key, index.contains client key = index'.contains client key) :
    index = index' := by
  have hset : ∀ client, index.keySet client = index'.keySet client := by
    intro client
    refine OrderedMap.ext_find? fun key => ?_
    have hk := hc client key
    simp only [contains, OrderedMap.contains] at hk
    cases hf : (index.keySet client).find? key <;>
      cases hf' : (index'.keySet client).find? key <;> simp_all
  have hsets : index.keySets = index'.keySets :=
    OrderedMap.ext_find? fun client => by rw [h.find?_eq, h'.find?_eq, hset]
  obtain ⟨sets⟩ := index
  obtain ⟨sets'⟩ := index'
  exact congrArg ClientIndex.mk hsets

end ClientIndex.Tidy

/-! ## The list of a key -/

namespace Table

/-- The subscribers of a key, in the bucket of the key; a key without bucket has none. -/
def listOf (t : Table) (key : String) : SubscriberList :=
  match route key with
  | none => .empty
  | some i => (t.bucket i).subscribersOf key

/-- What `subscribersOf` tells of a key is who stands in its list (`listOf`). -/
theorem subscribersOf_eq (t : Table) (key : String) :
    t.subscribersOf key = (t.listOf key).clients := by
  unfold subscribersOf listOf
  cases route key <;> rfl

/-- The list of a key that has a bucket is the one in that bucket. -/
theorem listOf_of_route {t : Table} {key : String} {i : BucketIndex} (hr : route key = some i) :
    t.listOf key = (t.bucket i).subscribersOf key := by
  rw [listOf, hr]

/-- The list of a key that has no bucket is empty. -/
theorem listOf_of_not_routed {t : Table} {key : String} (hr : route key = none) :
    t.listOf key = .empty := by
  rw [listOf, hr]

/-- In the table `empty` every key has the empty list. -/
theorem listOf_empty (key : String) : Table.empty.listOf key = .empty := by
  unfold listOf
  split
  · rfl
  · rw [bucket_empty]
    rfl

/-- To give a key the list that it has is to change nothing, which is how an operation that touches
no list fits the form of `listOf_setBucket`. -/
theorem listOf_same {t : Table} {key : String} {list : SubscriberList} (h : list = t.listOf key)
    (k : String) : (if k = key then list else t.listOf k) = t.listOf k := by
  split
  case isTrue hk => rw [h, hk]
  case isFalse => rfl

/-- Behind `setBucket` with a bucket that differs in the list of one of its keys, that key has the
new list and every other key its own. The index does not matter. -/
theorem listOf_setBucket {t : Table} {i : BucketIndex} {b : Bucket} {key : String}
    {list : SubscriberList} (hr : route key = some i)
    (hb : ∀ k, b.subscribersOf k = if k = key then list else (t.bucket i).subscribersOf k)
    (index : ClientIndex) (k : String) :
    ({ t.setBucket i b with index } : Table).listOf k = if k = key then list else t.listOf k := by
  cases hk : route k with
  | none =>
    have hne : k ≠ key := by
      rintro rfl
      rw [hr] at hk
      cases hk
    rw [if_neg hne, listOf_of_not_routed hk, listOf_of_not_routed hk]
  | some j =>
    rw [listOf_of_route hk, listOf_of_route hk, bucket_withIndex, bucket_setBucket]
    by_cases hj : j = i
    · rw [if_pos hj, hb, hj]
    · have hne : k ≠ key := by
        rintro rfl
        rw [hr] at hk
        exact hj (Option.some.inj hk).symm
      rw [if_neg hj, if_neg hne]

/-- Behind `setBucket` with a bucket of the same entries, every bucket has the entries that it
had. -/
theorem entries_setBucket {t : Table} {i : BucketIndex} {b : Bucket} (index : ClientIndex)
    (hb : b.entries = (t.bucket i).entries) (j : BucketIndex) :
    (({ t.setBucket i b with index } : Table).bucket j).entries = (t.bucket j).entries := by
  rw [bucket_withIndex, bucket_setBucket]
  split
  case isTrue hj => rw [hb, hj]
  case isFalse => rfl

/-- Behind `setBucket` with a bucket in good order, all buckets are in good order if they were. -/
theorem tidy_setBucket {t : Table} (h : ∀ j, (t.bucket j).Tidy j) {i : BucketIndex} {b : Bucket}
    (hb : b.Tidy i) (index : ClientIndex) (j : BucketIndex) :
    (({ t.setBucket i b with index } : Table).bucket j).Tidy j := by
  rw [bucket_withIndex, bucket_setBucket]
  split
  case isTrue hj => exact hj ▸ hb
  case isFalse => exact h j

/-! ## What the operations do to the list of a key -/

/-- To `write` a pair changes no list: subscribers are told, and stay. -/
theorem listOf_write (t : Table) (key value k : String) :
    (t.write key value).state.listOf k = t.listOf k := by
  unfold write
  cases hr : route key with
  | none => rfl
  | some i =>
    have hb : ∀ k, ((t.bucket i).put key value).state.subscribersOf k =
        if k = key then (t.bucket i).subscribersOf key else (t.bucket i).subscribersOf k := by
      intro k
      rw [Bucket.subscribersOf_put]
      split
      case isTrue hk => rw [hk]
      case isFalse => rfl
    exact (listOf_setBucket hr hb t.index k).trans (listOf_same (listOf_of_route hr).symm k)

/-- Behind `delete` a key that had an entry has no subscribers, and no other list changes. -/
theorem listOf_delete (t : Table) (key k : String) :
    (t.delete key).state.listOf k =
      if t.contains key = true ∧ k = key then .empty else t.listOf k := by
  unfold delete contains
  cases hr : route key with
  | none => exact (if_neg (fun h => Bool.false_ne_true h.1)).symm
  | some i =>
    simp only [Option.any_some]
    by_cases hc : (t.bucket i).contains key = true
    · simp only [hc, true_and]
      exact listOf_setBucket hr (Bucket.subscribersOf_remove hc) _ k
    · have hb : ∀ k, ((t.bucket i).remove key).state.subscribersOf k =
          if k = key then (t.bucket i).subscribersOf key else (t.bucket i).subscribersOf k := by
        intro k
        rw [Bucket.remove_of_not_contains hc]
        split
        case isTrue hk => rw [hk]; rfl
        case isFalse => rfl
      rw [if_neg (fun h => hc h.1)]
      exact (listOf_setBucket hr hb _ k).trans (listOf_same (listOf_of_route hr).symm k)

/-- Behind `subscribe` the key has the subscriber in its list (`SubscriberList.add`), and no other
list changes. -/
theorem listOf_of_subscribe {t t' : Table} {key client : String} {channel : ChannelId}
    {outcome : SubscribeOutcome} (h : t.subscribe key client channel = .ok (outcome, t'))
    (k : String) :
    t'.listOf k = if k = key then (t.listOf key).add ⟨client, channel⟩ else t.listOf k := by
  unfold subscribe at h
  split at h
  case h_1 => cases h
  case h_2 i hr =>
    cases h
    rw [listOf_of_route hr]
    exact listOf_setBucket hr (fun k => Bucket.subscribersOf_subscribe _ key k _) _ k

/-- Behind `unlinkKey` the client is not in the list of the key, and no other list changes. -/
theorem listOf_unlinkKey (t : Table) (client key k : String) :
    (unlinkKey client key t).state.listOf k =
      if k = key then (t.listOf key).remove client else t.listOf k := by
  unfold unlinkKey
  cases hr : route key with
  | none =>
    refine (listOf_same (t := t) ?_ k).symm
    rw [listOf_of_not_routed hr]
    rfl
  | some i =>
    rw [listOf_of_route hr]
    exact listOf_setBucket hr (fun k => Bucket.subscribersOf_unsubscribe _ key client k) t.index k

/-- Behind `unsubscribe` the client is not in the list of the key, and no other list changes. -/
theorem listOf_unsubscribe (t : Table) (key client k : String) :
    (t.unsubscribe key client).2.listOf k =
      if k = key then (t.listOf key).remove client else t.listOf k := by
  unfold unsubscribe
  cases hr : route key with
  | none =>
    refine (listOf_same (t := t) ?_ k).symm
    rw [listOf_of_not_routed hr]
    rfl
  | some i =>
    rw [listOf_of_route hr]
    simp only
    split
    case isTrue =>
      exact listOf_setBucket hr (fun k => Bucket.subscribersOf_unsubscribe _ key client k) _ k
    case isFalse hs =>
      rw [SubscriberList.remove_eq_self (fun hc => hs (Bucket.isSubscribed_iff.2 hc))]
      exact (listOf_same (listOf_of_route hr).symm k).symm

/-! ## Consistent tables -/

namespace Consistent

variable {t : Table}

/-- In a consistent table a client is in the list of a key if and only if the index has the key
under the client. -/
theorem mem_listOf_iff (h : t.Consistent) (client key : String) :
    client ∈ (t.listOf key).clients ↔ t.index.contains client key = true := by
  rw [← subscribersOf_eq]
  exact h.linked client key

/-- A table is consistent if its buckets and its index are in good order and the index has the pairs
that the lists have (`listOf`). Every operation is shown to keep `Consistent` by this. -/
theorem of_listOf (hb : ∀ i, (t.bucket i).Tidy i) (hi : t.index.Tidy)
    (hl : ∀ client key, client ∈ (t.listOf key).clients ↔ t.index.contains client key = true) :
    t.Consistent where
  buckets := hb
  index := hi
  linked client key := by rw [subscribersOf_eq, hl]

/-- The table `empty` is consistent. -/
theorem empty : Table.empty.Consistent := by
  refine of_listOf (fun i => ?_) ClientIndex.Tidy.empty fun client key => ?_
  · rw [bucket_empty]
    exact Bucket.Tidy.empty i
  · rw [listOf_empty]
    exact ⟨nofun, nofun⟩

/-- To `write` a pair keeps the table consistent, since it changes no list (`listOf_write`). -/
theorem write (h : t.Consistent) (key value : String) : (t.write key value).state.Consistent := by
  have hlist := listOf_write t key value
  unfold Table.write at hlist ⊢
  cases hr : route key with
  | none => exact h
  | some i =>
    rw [hr] at hlist
    refine of_listOf (tidy_setBucket h.buckets ((h.buckets i).put hr value) t.index) h.index
      fun client k => ?_
    rw [hlist]
    exact h.mem_listOf_iff client k

/-- To `delete` a key keeps the table consistent: the clients that are dropped from its list are
those from whose keys it is taken (`contains_forget`). -/
theorem delete (h : t.Consistent) (key : String) : (t.delete key).state.Consistent := by
  have hlist := listOf_delete t key
  unfold Table.delete Table.contains at hlist
  unfold Table.delete
  cases hr : route key with
  | none => exact h
  | some i =>
    rw [hr] at hlist
    simp only [Option.any_some] at hlist
    refine of_listOf (tidy_setBucket h.buckets ((h.buckets i).remove key) _)
      (h.index.forget key _) fun client k => ?_
    rw [hlist]
    show _ ↔ (forget t.index key ((t.bucket i).remove key).result.2).contains client k = true
    rw [contains_forget, ← h.mem_listOf_iff]
    by_cases hc : (t.bucket i).contains key = true
    · have hdropped : ((t.bucket i).remove key).result.2 = (t.listOf key).clients := by
        rw [Bucket.remove, if_pos hc, listOf_of_route hr]
      rw [hdropped]
      by_cases hk : k = key
      · subst hk
        simp [hc, SubscriberList.clients, SubscriberList.empty]
      · simp [hk]
    · simp [hc, Bucket.remove_of_not_contains hc, Effect.pure]

/-- To `subscribe` a client keeps the table consistent: the pair is entered in the list and in the
index. -/
theorem subscribe (h : t.Consistent) {key client : String} {channel : ChannelId}
    {outcome : SubscribeOutcome} {t' : Table}
    (hs : t.subscribe key client channel = .ok (outcome, t')) : t'.Consistent := by
  have hlist := listOf_of_subscribe hs
  unfold Table.subscribe at hs
  split at hs
  case h_1 => cases hs
  case h_2 i hr =>
    cases hs
    refine of_listOf (tidy_setBucket h.buckets ((h.buckets i).subscribe hr _) _)
      (h.index.insert client key) fun c k => ?_
    rw [hlist]
    show _ ↔ (t.index.insert client key).contains c k = true
    rw [ClientIndex.contains_insert, ← h.mem_listOf_iff]
    by_cases hk : k = key
    · subst hk
      rw [if_pos rfl, SubscriberList.clients_add]
      split
      case isTrue hmem =>
        exact ⟨.inr, fun hor => hor.elim (fun he => he.1 ▸ hmem) id⟩
      case isFalse =>
        rw [List.mem_append, List.mem_singleton]
        exact ⟨fun hor => hor.elim .inr fun he => .inl ⟨he, rfl⟩,
          fun hor => hor.elim (fun he => .inr he.1) .inl⟩
    · rw [if_neg hk]
      exact ⟨.inr, fun hor => hor.elim (fun he => absurd he.2 hk) id⟩

/-- To `unsubscribe` a client keeps the table consistent: the pair goes from the list and from the
index. -/
theorem unsubscribe (h : t.Consistent) (key client : String) :
    (t.unsubscribe key client).2.Consistent := by
  have hlist := listOf_unsubscribe t key client
  unfold Table.unsubscribe at hlist ⊢
  cases hr : route key with
  | none => exact h
  | some i =>
    rw [hr] at hlist
    simp only at hlist ⊢
    split
    case isFalse => exact h
    case isTrue hs =>
      rw [if_pos hs] at hlist
      refine of_listOf (tidy_setBucket h.buckets ((h.buckets i).unsubscribe client) _)
        (h.index.remove client key) fun c k => ?_
      rw [hlist]
      show _ ↔ (t.index.remove client key).contains c k = true
      rw [ClientIndex.contains_remove, ← h.mem_listOf_iff]
      by_cases hk : k = key
      · subst hk
        simp [And.comm]
      · simp [hk]

end Consistent

/-! ## Batches, and clients that leave -/

/-- A property of tables that every operation of a row keeps is kept by the row (`Effect.each`). -/
theorem each_state_induction {α κ : Type} {f : κ → Table → Effect Table α} {p : Table → Prop}
    (hstep : ∀ k t, p t → p (f k t).state) (items : List κ) {t : Table} (h : p t) :
    p (Effect.each f items t).state := by
  induction items generalizing t with
  | nil => exact h
  | cons k rest ih => exact ih (hstep k t h)

/-- To write a batch changes no list, since none of its writes does (`writeMany_eq_each`). -/
theorem listOf_writeMany (t : Table) (pairs : List (String × String)) (k : String) :
    (t.writeMany pairs).state.listOf k = t.listOf k := by
  rw [writeMany_eq_each]
  exact each_state_induction (p := fun u => u.listOf k = t.listOf k)
    (fun pair u hu => by rw [state_writePair, listOf_write, hu]) _ rfl

/-- Who is subscribed to a key behind a `delete` was subscribed to it before. -/
theorem mem_listOf_of_delete {t : Table} {key k : String} {sub : Subscriber}
    (h : sub ∈ ((t.delete key).state.listOf k).subscribers) : sub ∈ (t.listOf k).subscribers := by
  rw [listOf_delete] at h
  split at h
  case isTrue => cases h
  case isFalse => exact h

/-- Who is subscribed to a key behind a `deleteMany` was subscribed to it before. -/
theorem mem_listOf_of_deleteMany {t : Table} {keys : List String} {k : String} {sub : Subscriber}
    (h : sub ∈ ((t.deleteMany keys).state.listOf k).subscribers) :
    sub ∈ (t.listOf k).subscribers := by
  rw [deleteMany_eq_each] at h
  exact each_state_induction
    (p := fun u => ∀ s ∈ (u.listOf k).subscribers, s ∈ (t.listOf k).subscribers)
    (fun key u hu s hs => hu s (mem_listOf_of_delete (state_deleteKey key u ▸ hs))) _
    (fun _ hs => hs) sub h

/-- To drop a client from a key (`unlinkKey`) keeps all buckets in good order. -/
theorem tidy_unlinkKey {t : Table} (h : ∀ i, (t.bucket i).Tidy i) (client key : String)
    (i : BucketIndex) : ((unlinkKey client key t).state.bucket i).Tidy i := by
  unfold unlinkKey
  split
  case h_1 => exact h i
  case h_2 j _ => exact tidy_setBucket h ((h j).unsubscribe client) t.index i

/-- To drop a client from a key (`unlinkKey`) leaves the index as it is. -/
theorem index_unlinkKey (t : Table) (client key : String) :
    (unlinkKey client key t).state.index = t.index := by
  unfold unlinkKey
  split <;> rfl

/-- To drop a client from a key (`unlinkKey`) leaves the entries of all buckets as they are. -/
theorem entries_unlinkKey (t : Table) (client key : String) (i : BucketIndex) :
    ((unlinkKey client key t).state.bucket i).entries = (t.bucket i).entries := by
  unfold unlinkKey
  split
  case h_1 => rfl
  case h_2 j _ =>
    exact entries_setBucket t.index (Bucket.entries_unsubscribe (t.bucket j) key client) i

/-- A client that is dropped from some keys one after another is in none of their lists, and no
other list changes. -/
theorem listOf_each_unlinkKey (t : Table) (client : String) (keys : List String) (k : String) :
    (Effect.each (unlinkKey client) keys t).state.listOf k =
      if k ∈ keys then (t.listOf k).remove client else t.listOf k := by
  induction keys generalizing t with
  | nil => simp
  | cons key rest ih =>
    rw [Effect.each_cons]
    simp only [ih, listOf_unlinkKey, List.mem_cons]
    by_cases hk : k = key
    · subst hk
      simp
    · simp [hk]

/-- Behind `unlink` the client is in none of the lists of the keys, and no other list changes. -/
theorem listOf_unlink (t : Table) (client : String) (keys : List String) (k : String) :
    (t.unlink client keys).2.listOf k =
      if k ∈ keys then (t.listOf k).remove client else t.listOf k := by
  rw [unlink_eq]
  exact listOf_each_unlinkKey t client keys k

/-- To `unlink` a client leaves the index as it is, from which `takeKeys` has taken it. -/
theorem index_unlink (t : Table) (client : String) (keys : List String) :
    (t.unlink client keys).2.index = t.index := by
  rw [unlink_eq]
  exact each_state_induction (p := fun u => u.index = t.index)
    (fun key u hu => (index_unlinkKey u client key).trans hu) _ rfl

/-- To `unlink` a client leaves the entries of all buckets as they are. -/
theorem entries_unlink (t : Table) (client : String) (keys : List String) (i : BucketIndex) :
    ((t.unlink client keys).2.bucket i).entries = (t.bucket i).entries := by
  rw [unlink_eq]
  exact each_state_induction (p := fun u => (u.bucket i).entries = (t.bucket i).entries)
    (fun key u hu => (entries_unlinkKey u client key i).trans hu) _ rfl

/-- To `unlink` a client keeps all buckets in good order. -/
theorem tidy_unlink {t : Table} (h : ∀ i, (t.bucket i).Tidy i) (client : String)
    (keys : List String) (i : BucketIndex) : ((t.unlink client keys).2.bucket i).Tidy i := by
  rw [unlink_eq]
  exact each_state_induction (p := fun u => ∀ i, (u.bucket i).Tidy i)
    (fun key u hu => tidy_unlinkKey hu client key) keys h i

/-- The keys of a client are those in whose lists it is, so to drop it from them, and from others
besides, is to drop it from every list. -/
theorem Consistent.listOf_unlink {t : Table} (h : t.Consistent) {client : String}
    {keys : List String} (hkeys : ∀ key ∈ t.keysOf client, key ∈ keys) (k : String) :
    ((t.takeKeys client).2.unlink client keys).2.listOf k = (t.listOf k).remove client := by
  rw [Table.listOf_unlink]
  show (if k ∈ keys then (t.listOf k).remove client else t.listOf k) = _
  split
  case isTrue => rfl
  case isFalse hk =>
    refine (SubscriberList.remove_eq_self fun hmem => hk (hkeys k ?_)).symm
    exact ClientIndex.mem_keysOf.2 ((h.mem_listOf_iff client k).1 hmem)

/-- A client that leaves a consistent table by `removeAll` is dropped from every list, and no other
client is from any. -/
theorem listOf_removeAll {t : Table} (h : t.Consistent) (client k : String) :
    (t.removeAll client).2.listOf k = (t.listOf k).remove client :=
  h.listOf_unlink (fun _ hkey => hkey) k

/-- The index behind `removeAll` is the one before without the client (`ClientIndex.drop`). -/
theorem index_removeAll (t : Table) (client : String) :
    (t.removeAll client).2.index = t.index.drop client :=
  index_unlink (t.takeKeys client).2 client (t.keysOf client)

/-- A client that leaves by `removeAll` leaves the entries of all buckets as they are. -/
theorem entries_removeAll (t : Table) (client : String) (i : BucketIndex) :
    ((t.removeAll client).2.bucket i).entries = (t.bucket i).entries :=
  entries_unlink (t.takeKeys client).2 client (t.keysOf client) i

namespace Consistent

variable {t : Table}

/-- To write a batch keeps the table consistent (`Consistent.write`). -/
theorem writeMany (h : t.Consistent) (pairs : List (String × String)) :
    (t.writeMany pairs).state.Consistent := by
  rw [writeMany_eq_each]
  exact each_state_induction (fun pair u hu => hu.write pair.1 pair.2) _ h

/-- To delete a batch keeps the table consistent (`Consistent.delete`). -/
theorem deleteMany (h : t.Consistent) (keys : List String) :
    (t.deleteMany keys).state.Consistent := by
  rw [deleteMany_eq_each]
  exact each_state_induction (fun key u hu => hu.delete key) _ h

/-- A client whose keys were taken from the index is gone from a consistent table once it is dropped
from them, and from others besides; in between the table is not consistent. -/
theorem unlink (h : t.Consistent) {client : String} {keys : List String}
    (hkeys : ∀ key ∈ t.keysOf client, key ∈ keys) :
    ((t.takeKeys client).2.unlink client keys).2.Consistent := by
  refine of_listOf (tidy_unlink (t := (t.takeKeys client).2) h.buckets client keys) ?_ fun c k => ?_
  · rw [index_unlink]
    exact h.index.drop client
  · rw [h.listOf_unlink hkeys, index_unlink, SubscriberList.mem_clients_remove, h.mem_listOf_iff]
    exact And.comm.trans ClientIndex.contains_drop.symm

/-- A client that leaves by `removeAll` leaves a consistent table. -/
theorem removeAll (h : t.Consistent) (client : String) : (t.removeAll client).2.Consistent :=
  h.unlink fun _ hkey => hkey

/-- A consistent table is determined by its entries and the lists of its keys (`listOf`). -/
theorem ext {u : Table} (h : t.Consistent) (hu : u.Consistent)
    (he : ∀ i, (t.bucket i).entries = (u.bucket i).entries)
    (hl : ∀ key, t.listOf key = u.listOf key) : t = u := by
  refine ext_bucket (fun i => ?_) (h.index.ext hu.index fun client key => ?_)
  · have hlists : ∀ key, (t.bucket i).subscribersOf key = (u.bucket i).subscribersOf key := by
      intro key
      by_cases hr : route key = some i
      · have hkey := hl key
        rwa [listOf_of_route hr, listOf_of_route hr] at hkey
      · rw [(h.buckets i).subscribersOf_of_route_ne hr, (hu.buckets i).subscribersOf_of_route_ne hr]
    have hsubs : (t.bucket i).subscribers = (u.bucket i).subscribers :=
      OrderedMap.ext_find? fun key => by
        rw [(h.buckets i).find?_eq, (hu.buckets i).find?_eq, hlists]
    calc t.bucket i = ⟨(t.bucket i).entries, (t.bucket i).subscribers⟩ := rfl
      _ = ⟨(u.bucket i).entries, (u.bucket i).subscribers⟩ := by rw [he i, hsubs]
      _ = u.bucket i := rfl
  · rw [Bool.eq_iff_iff, ← h.mem_listOf_iff, ← hu.mem_listOf_iff, hl]

end Consistent

end Table

end KeyWatch
