import Mathlib.Data.List.Nodup
import KeyWatch.Proofs.Table.Consistent

/-!
# Entries and notices of the operations

Which keys have entries after an operation, and with which values, how the operation goes and which
notices it sends. Only a write and a delete
change the entries or send notices, and the notices go to the list of the key as it was before
(`Table.notices_write`, `Table.notices_delete`). What is done to subscriptions leaves the entries
of every bucket as they are.
-/

namespace KeyWatch

namespace Bucket

/-- Behind `put` the keys with an entry are the one written and those that had one. -/
theorem contains_put {b : Bucket} {key value k : String} :
    (b.put key value).state.contains k = true ↔ k = key ∨ b.contains k = true := by
  rw [contains_iff, contains_iff, keys_put]
  split
  case isTrue hc =>
    exact ⟨.inr, fun h => h.elim (fun he => he ▸ contains_iff.1 hc) id⟩
  case isFalse => rw [List.mem_append, List.mem_singleton, or_comm]

/-- Behind `remove` the keys with an entry are those that had one, without the one removed. -/
theorem contains_remove {b : Bucket} {key k : String} :
    (b.remove key).state.contains k = true ↔ k ≠ key ∧ b.contains k = true := by
  rw [contains_iff, contains_iff, keys_remove, List.mem_filter, bne_iff_ne, and_comm]

/-- A key has a value by `get?` if and only if it has an entry by `contains`. -/
theorem isSome_get? (b : Bucket) (key : String) : (b.get? key).isSome = b.contains key := by
  rw [get?, Option.isSome_map, List.isSome_find?]
  rfl

/-- Behind `put` the key has the value written, and every other key has its own. -/
theorem get?_put (b : Bucket) (key value k : String) :
    (b.put key value).state.get? k = if k = key then some value else b.get? k := by
  unfold put
  simp only
  split
  case isTrue hc =>
    -- no entry changes its key, so the same entry is found
    have hkeys : ((·.key == k) ∘ fun e : Entry => if e.key = key then ⟨key, value⟩ else e) =
        (·.key == k) := by
      funext e
      simp only [Function.comp_apply]
      split
      case isTrue hek => rw [hek]
      case isFalse => rfl
    simp only [get?, List.find?_map, Option.map_map, hkeys]
    by_cases hk : k = key
    · subst hk
      obtain ⟨e, he⟩ := Option.isSome_iff_exists.1 (List.isSome_find?.trans hc)
      have hkey : e.key = k := by simpa using List.find?_some he
      simp [he, hkey]
    · rw [if_neg hk]
      refine Option.map_congr fun e he => ?_
      have hkey : e.key = k := by simpa using List.find?_some he
      have hne : e.key ≠ key := hkey ▸ hk
      simp [hne]
  case isFalse hc =>
    rw [get?, List.find?_append, Option.map_or]
    by_cases hk : k = key
    · subst hk
      have hnone : b.get? k = none := by
        rw [← Option.not_isSome_iff_eq_none, isSome_get?]
        exact hc
      rw [get?] at hnone
      simp [hnone]
    · have hne : (key == k) = false := beq_eq_false_iff_ne.2 (Ne.symm hk)
      simp [hk, hne, get?]

/-- Behind `remove` the key has no value, and every other key has its own. -/
theorem get?_remove (b : Bucket) (key k : String) :
    (b.remove key).state.get? k = if k = key then none else b.get? k := by
  by_cases hk : k = key
  · rw [if_pos hk, ← Option.not_isSome_iff_eq_none, isSome_get?, contains_remove]
    exact fun h => h.1 hk
  · rw [if_neg hk]
    unfold remove
    split
    case isFalse => rfl
    case isTrue =>
      simp only [get?, List.find?_filter]
      congr 2
      funext e
      by_cases he : e.key = k
      · simp [he, hk]
      · simp [he]

/-- In a bucket of distinct keys the entries are the pairs of a key and the value that `get?` finds
for it. -/
theorem get?_eq_some_iff {b : Bucket} (h : (b.entries.map Entry.key).Nodup) {e : Entry} :
    b.get? e.key = some e.value ↔ e ∈ b.entries := by
  rw [get?, Option.map_eq_some_iff]
  constructor
  · rintro ⟨found, hfound, hvalue⟩
    have hkey : found.key = e.key := by simpa using List.find?_some hfound
    have hsame : found = e := by
      obtain ⟨key, value⟩ := found
      obtain ⟨key', value'⟩ := e
      rw [show key = key' from hkey, show value = value' from hvalue]
    exact hsame ▸ List.mem_of_find?_eq_some hfound
  · intro he
    have hsome : (b.entries.find? (·.key == e.key)).isSome = true :=
      List.find?_isSome.2 ⟨e, he, beq_self_eq_true _⟩
    obtain ⟨found, hfound⟩ := Option.isSome_iff_exists.1 hsome
    have hkey : found.key = e.key := by simpa using List.find?_some hfound
    have hsame : found = e :=
      List.inj_on_of_nodup_map h (List.mem_of_find?_eq_some hfound) he hkey
    exact ⟨found, hfound, congrArg Entry.value hsame⟩

end Bucket

namespace Table

/-! ## Values -/

/-- The value of a key that has a bucket is the one in that bucket. -/
theorem read_of_route {t : Table} {key : String} {i : BucketIndex} (hr : route key = some i) :
    t.read key = (t.bucket i).get? key := by
  rw [read, hr, Option.bind_some]

/-- A key that has no bucket has no value. -/
theorem read_of_not_routed {t : Table} {key : String} (hr : route key = none) :
    t.read key = none := by
  rw [read, hr, Option.bind_none]

/-- A key has a value by `read` if and only if it has an entry by `contains`. -/
theorem isSome_read (t : Table) (key : String) : (t.read key).isSome = t.contains key := by
  unfold read contains
  cases route key with
  | none => rfl
  | some i => exact Bucket.isSome_get? _ key

/-- Behind `setBucket` a key of that bucket has its value there, and every other key has its own. -/
theorem read_setBucket (t : Table) (i : BucketIndex) (b : Bucket) (index : ClientIndex)
    (key : String) :
    ({ t.setBucket i b with index } : Table).read key =
      if route key = some i then b.get? key else t.read key := by
  cases hr : route key with
  | none => rw [read_of_not_routed hr, read_of_not_routed hr, if_neg nofun]
  | some j =>
    rw [read_of_route hr, read_of_route hr, bucket_withIndex, bucket_setBucket]
    by_cases hj : j = i
    · rw [if_pos hj, if_pos (congrArg some hj)]
    · rw [if_neg hj, if_neg fun he => hj (Option.some.inj he)]

/-- Behind `write` the key has the value written, if it has a bucket, and every other key has its
own. -/
theorem read_write (t : Table) (key value k : String) :
    (t.write key value).state.read k =
      if key = k ∧ (route k).isSome = true then some value else t.read k := by
  unfold write
  cases hr : route key with
  | none =>
    rw [if_neg]
    · rfl
    · rintro ⟨rfl, hroute⟩
      rw [hr] at hroute
      cases hroute
  | some i =>
    have hset := read_setBucket t i ((t.bucket i).put key value).state t.index k
    refine hset.trans ?_
    by_cases hk : route k = some i
    · rw [if_pos hk, Bucket.get?_put, read_of_route hk, hk]
      simp [eq_comm]
    · rw [if_neg hk, if_neg]
      rintro ⟨rfl, -⟩
      exact hk hr

/-- Behind `delete` the key has no value, and every other key has its own. -/
theorem read_delete (t : Table) (key k : String) :
    (t.delete key).state.read k = if key = k then none else t.read k := by
  unfold delete
  cases hr : route key with
  | none =>
    by_cases hk : key = k
    · rw [if_pos hk]
      exact read_of_not_routed (hk ▸ hr)
    · rw [if_neg hk]
      rfl
  | some i =>
    simp only
    rw [read_setBucket]
    by_cases hk : route k = some i
    · rw [if_pos hk, Bucket.get?_remove, read_of_route hk]
      simp [eq_comm]
    · rw [if_neg hk, if_neg]
      rintro rfl
      exact hk hr

/-! ## Outcomes -/

/-- A key that has a bucket has an entry if it has one there. -/
theorem contains_of_route {t : Table} {key : String} {i : BucketIndex} (hr : route key = some i) :
    t.contains key = (t.bucket i).contains key := by
  rw [contains, hr, Option.any_some]

/-- A key that has no bucket has no entry. -/
theorem contains_of_not_routed {t : Table} {key : String} (hr : route key = none) :
    t.contains key = false := by
  rw [contains, hr, Option.any_none]

/-- A `write` is rejected for a key without bucket, and else tells whether the key had an entry
before. -/
theorem result_write (t : Table) (key value : String) :
    (t.write key value).result =
      if route key = none then .rejected else if t.contains key = true then .updated
      else .inserted := by
  unfold write
  cases hr : route key with
  | none => rfl
  | some i =>
    rw [if_neg nofun, contains_of_route hr]
    simp only [Effect.within, Bucket.put]
    split <;> rfl

/-- A `delete` tells whether the key had an entry; a key without bucket had none. -/
theorem result_delete (t : Table) (key : String) :
    (t.delete key).result = if t.contains key = true then .deleted else .missing := by
  unfold delete
  cases hr : route key with
  | none =>
    rw [contains_of_not_routed hr]
    rfl
  | some i =>
    rw [contains_of_route hr]
    simp only [Bucket.remove]
    split <;> rfl

/-- A subscription that is made tells whether the key has an entry, and then whether the client was
subscribed before. -/
theorem outcome_of_subscribe {t t' : Table} {key client : String} {channel : ChannelId}
    {outcome : SubscribeOutcome} (h : t.subscribe key client channel = .ok (outcome, t')) :
    outcome =
      if t.contains key = false then .keyNotFound
      else if client ∈ (t.listOf key).clients then .alreadySubscribed
      else .subscribed := by
  unfold subscribe at h
  split at h
  case h_1 => cases h
  case h_2 i hr =>
    cases h
    rw [contains_of_route hr, listOf_of_route hr]
    simp only [Bucket.isSubscribed_iff, Bool.not_eq_true']

/-- The end of a subscription tells whether the client was in the list of the key (`listOf`). -/
theorem outcome_unsubscribe (t : Table) (key client : String) :
    (t.unsubscribe key client).1 =
      if client ∈ (t.listOf key).clients then .removed else .notSubscribed := by
  unfold unsubscribe
  cases hr : route key with
  | none =>
    rw [listOf_of_not_routed hr]
    rfl
  | some i =>
    rw [listOf_of_route hr]
    simp only [Bucket.isSubscribed_iff]
    split <;> rfl

/-- To drop a client from a key by `unlinkKey` tells whether it was in the list of the key. -/
theorem result_unlinkKey (t : Table) (client key : String) :
    (unlinkKey client key t).result = true ↔ client ∈ (t.listOf key).clients := by
  unfold unlinkKey
  cases hr : route key with
  | none =>
    rw [listOf_of_not_routed hr]
    exact ⟨nofun, nofun⟩
  | some i =>
    rw [listOf_of_route hr]
    exact Bucket.isSubscribed_iff

/-- A client that is in the lists of some distinct keys is found in each of them when it is dropped
from one after another. -/
theorem result_each_unlinkKey {t : Table} {client : String} {keys : List String}
    (hnodup : keys.Nodup) (h : ∀ key ∈ keys, client ∈ (t.listOf key).clients) :
    (Effect.each (unlinkKey client) keys t).result = List.replicate keys.length true := by
  induction keys generalizing t with
  | nil => rfl
  | cons key rest ih =>
    obtain ⟨hnew, hrest⟩ := List.nodup_cons.1 hnodup
    have hfirst := (result_unlinkKey t client key).2 (h key List.mem_cons_self)
    have hafter : ∀ k ∈ rest, client ∈ ((unlinkKey client key t).state.listOf k).clients := by
      intro k hk
      have hne : k ≠ key := fun he => hnew (he ▸ hk)
      rw [listOf_unlinkKey, if_neg hne]
      exact h k (List.mem_cons_of_mem key hk)
    rw [Effect.each_cons, hfirst, ih hrest hafter]
    rfl

/-- A client that leaves a consistent table by `removeAll` ends as many subscriptions as it has
keys. -/
theorem Consistent.count_removeAll {t : Table} (h : t.Consistent) (client : String) :
    (t.removeAll client).1 = (t.keysOf client).length := by
  have hlisted : ∀ key ∈ t.keysOf client,
      client ∈ ((t.takeKeys client).2.listOf key).clients := fun key hkey =>
    (h.mem_listOf_iff client key).2 (ClientIndex.mem_keysOf.1 hkey)
  have hnodup : (t.keysOf client).Nodup := OrderedMap.nodup_keys _
  rw [removeAll_eq]
  simp only [result_each_unlinkKey hnodup hlisted, List.count_replicate_self]

/-! ## Entries -/

/-- Behind `setBucket` a key of that bucket has an entry if it has one there, and every other key if
it had one. -/
theorem contains_setBucket (t : Table) (i : BucketIndex) (b : Bucket) (index : ClientIndex)
    (key : String) :
    ({ t.setBucket i b with index } : Table).contains key =
      if route key = some i then b.contains key else t.contains key := by
  cases hr : route key with
  | none => rw [contains_of_not_routed hr, contains_of_not_routed hr, if_neg nofun]
  | some j =>
    rw [contains_of_route hr, contains_of_route hr, bucket_withIndex, bucket_setBucket]
    by_cases hj : j = i
    · rw [if_pos hj, if_pos (congrArg some hj)]
    · rw [if_neg hj, if_neg fun he => hj (Option.some.inj he)]

/-- Behind `write` the keys with an entry are the one written, if it has a bucket, and those that
had one. -/
theorem contains_write {t : Table} {key value k : String} :
    (t.write key value).state.contains k = true ↔
      k = key ∧ (route key).isSome = true ∨ t.contains k = true := by
  unfold write
  cases hr : route key with
  | none => simp [Effect.pure]
  | some i =>
    have hset := contains_setBucket t i ((t.bucket i).put key value).state t.index k
    refine (Bool.eq_iff_iff.1 hset).trans ?_
    by_cases hk : route k = some i
    · rw [if_pos hk, Bucket.contains_put, contains_of_route hk]
      simp
    · rw [if_neg hk]
      have hne : k ≠ key := fun he => hk (he ▸ hr)
      simp [hne]

/-- Behind `delete` the keys with an entry are those that had one, without the one deleted. -/
theorem contains_delete {t : Table} {key k : String} :
    (t.delete key).state.contains k = true ↔ k ≠ key ∧ t.contains k = true := by
  unfold delete
  cases hr : route key with
  | none =>
    refine ⟨fun h => ⟨?_, h⟩, And.right⟩
    rintro rfl
    rw [contains_of_not_routed hr] at h
    cases h
  | some i =>
    simp only
    rw [contains_setBucket]
    by_cases hk : route k = some i
    · rw [if_pos hk, Bucket.contains_remove, contains_of_route hk]
    · rw [if_neg hk]
      exact ⟨fun h => ⟨fun he => hk (he ▸ hr), h⟩, And.right⟩

/-- Tables whose buckets have the same entries have entries of the same keys. -/
theorem contains_eq_of_entries {t u : Table}
    (h : ∀ i, (t.bucket i).entries = (u.bucket i).entries) (key : String) :
    t.contains key = u.contains key := by
  unfold contains Bucket.contains
  simp only [h]

/-- A subscription leaves the entries of every bucket as they are. -/
theorem entries_of_subscribe {t t' : Table} {key client : String} {channel : ChannelId}
    {outcome : SubscribeOutcome} (h : t.subscribe key client channel = .ok (outcome, t'))
    (i : BucketIndex) : (t'.bucket i).entries = (t.bucket i).entries := by
  unfold subscribe at h
  split at h
  case h_1 => cases h
  case h_2 j _ =>
    cases h
    exact entries_setBucket _ (Bucket.entries_subscribe _ key _) i

/-- The end of a subscription leaves the entries of every bucket as they are. -/
theorem entries_unsubscribe (t : Table) (key client : String) (i : BucketIndex) :
    ((t.unsubscribe key client).2.bucket i).entries = (t.bucket i).entries := by
  unfold unsubscribe
  split
  case h_1 => rfl
  case h_2 j _ =>
    simp only
    split
    case isTrue => exact entries_setBucket _ (Bucket.entries_unsubscribe _ key client) i
    case isFalse => rfl

/-! ## Notices -/

/-- A `write` is told to those in the list of the key (`listOf`), in the order of the list, with the
value written. -/
theorem notices_write (t : Table) (key value : String) :
    (t.write key value).notices = (t.listOf key).notices ⟨key, value⟩ := by
  unfold write
  cases hr : route key with
  | none =>
    rw [listOf_of_not_routed hr]
    rfl
  | some i =>
    rw [listOf_of_route hr]
    simp only [Effect.within, Bucket.put]
    split <;> rfl

/-- A `delete` is told to those in the list of the key as it was before, unless the key has no
entry; then nobody is told. -/
theorem notices_delete (t : Table) (key : String) :
    (t.delete key).notices =
      if t.contains key = true then (t.listOf key).notices (.deleted key) else [] := by
  unfold delete
  cases hr : route key with
  | none =>
    rw [contains_of_not_routed hr]
    rfl
  | some i =>
    rw [listOf_of_route hr, contains_of_route hr]
    simp only [Bucket.remove]
    split <;> rfl

end Table

end KeyWatch
