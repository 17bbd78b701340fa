import Mathlib.Data.List.Pairwise
import Mathlib.Order.Fin.Basic
import KeyWatch.Table.Subscription

/-!
# Batches are single operations in key order

A batch works on the buckets that its keys touch and puts them back at the end. Nobody can tell:
`writeMany_eq_each` and `deleteMany_eq_each` say that it does what single operations do one after
another, with the same results, the same notices and the same table at the end, and
`removeAll_eq` says so of a client that leaves. The step from held buckets to
the table is one lemma for all three (`Table.within_release_each`): an operation on held buckets
that is an operation on the table once they are put back stays one when it is repeated.
-/

namespace KeyWatch

/-- The bucket of a key is held, if the key has one. Then an operation on the key finds the bucket
that it would find in the table. -/
def Holding.Covers (h : Holding) (key : String) : Prop :=
  ∀ i, route key = some i → (h.held.find? i).isSome = true

namespace Holding

/-- A key without bucket has none that is held. -/
theorem bucket?_eq_none {h : Holding} {key : String} (hr : route key = none) :
    h.bucket? key = none := by
  simp [bucket?, hr]

/-- A key whose bucket is held finds it by `bucket?`, with its number. -/
theorem bucket?_eq_some {h : Holding} {key : String} {i : BucketIndex} {b : Bucket}
    (hr : route key = some i) (hb : h.held.find? i = some b) : h.bucket? key = some (i, b) := by
  simp [bucket?, hr, hb]

/-- To replace a bucket that is held lets go of none: what was covered (`Covers`) is covered. -/
theorem Covers.setBucket {h : Holding} {key : String} (hc : h.Covers key) (i : BucketIndex)
    (b : Bucket) (index : ClientIndex) : Covers { h.setBucket i b with index } key := by
  intro j hj
  simp only [Holding.setBucket, OrderedMap.find?_insert]
  split
  · rfl
  · exact hc j hj

end Holding

namespace Table

/-! ## Holding and putting back -/

/-- When buckets are put into a table one after another, in ascending order, a bucket is the one put
in under its number, or else what it was. -/
theorem bucket_foldl_setBucket {l : List (BucketIndex × Bucket)}
    (hl : l.Pairwise fun a b => a.1 < b.1) (t : Table) (i : BucketIndex) :
    (l.foldl (fun t p => t.setBucket p.1 p.2) t).bucket i = (l.lookup i).getD (t.bucket i) := by
  induction l generalizing t with
  | nil => rfl
  | cons p rest ih =>
    obtain ⟨hp, hrest⟩ := List.pairwise_cons.1 hl
    rw [List.foldl_cons, ih hrest, bucket_setBucket, OrderedMap.lookup_cons]
    rcases Decidable.em (i = p.1) with rfl | hi
    · rw [OrderedMap.lookup_eq_none_of_lt hp, if_pos rfl, if_pos rfl]
      rfl
    · rw [if_neg hi, if_neg hi]

/-- Behind `release` a bucket is the one held, or what it was if it was not held. -/
theorem bucket_release (t : Table) (h : Holding) (i : BucketIndex) :
    (t.release h).bucket i = (h.held.find? i).getD (t.bucket i) :=
  bucket_foldl_setBucket h.held.ascending t i

/-- Behind `release` the index is the one held. -/
@[simp] theorem index_release (t : Table) (h : Holding) : (t.release h).index = h.index := rfl

/-- A bucket that is replaced while it is held is replaced in the table behind `release`. -/
theorem release_setBucket (t : Table) (h : Holding) (i : BucketIndex) (b : Bucket)
    (index : ClientIndex) :
    t.release { h.setBucket i b with index } = { (t.release h).setBucket i b with index } := by
  refine ext_bucket (fun j => ?_) rfl
  simp only [bucket_release, bucket_withIndex, bucket_setBucket, Holding.setBucket,
    OrderedMap.find?_insert]
  split <;> rfl

/-- Behind `release` a bucket that is held is the one held. -/
theorem bucket_release_of_held {t : Table} {h : Holding} {i : BucketIndex} {b : Bucket}
    (hb : h.held.find? i = some b) : (t.release h).bucket i = b := by
  rw [bucket_release, hb]
  rfl

/-- When buckets of a table are taken into a map one after another, the map has those of the given
numbers, as they are in the table. -/
theorem find?_foldl_insert (t : Table) (is : List BucketIndex)
    (held : OrderedMap BucketIndex Bucket) (i : BucketIndex) :
    (is.foldl (fun held i => held.insert i (t.bucket i)) held).find? i =
      if i ∈ is then some (t.bucket i) else held.find? i := by
  induction is generalizing held with
  | nil => simp
  | cons j rest ih =>
    rw [List.foldl_cons, ih, OrderedMap.find?_insert]
    by_cases hj : i = j
    · subst hj
      simp
    · simp [hj]

/-- To `hold` some keys holds their buckets as they are, and no others. -/
theorem find?_hold (t : Table) (keys : List String) (i : BucketIndex) :
    (t.hold keys).held.find? i =
      if i ∈ keys.filterMap route then some (t.bucket i) else none := by
  rw [hold, find?_foldl_insert]
  rfl

/-- To `hold` some keys covers each of them (`Holding.Covers`). -/
theorem covers_hold {t : Table} {keys : List String} {key : String} (h : key ∈ keys) :
    (t.hold keys).Covers key := by
  intro i hi
  rw [find?_hold, if_pos (List.mem_filterMap.2 ⟨key, h, hi⟩)]
  rfl

/-- What was held and is put back untouched changes nothing: `release` undoes `hold`. -/
theorem release_hold (t : Table) (keys : List String) : t.release (t.hold keys) = t := by
  refine ext_bucket (fun i => ?_) rfl
  rw [bucket_release, find?_hold]
  split <;> rfl

/-! ## One operation, held or not -/

section

variable {α κ : Type}

/-- An operation on held buckets does what one on the table does once they are put back (`release`),
and lets go of none. -/
def Mirrors (t : Table) (f : Holding → Effect Holding α) (g : Table → Effect Table α)
    (h : Holding) : Prop :=
  (f h).within t.release = g (t.release h) ∧ ∀ key, h.Covers key → (f h).state.Covers key

/-- Operations on held buckets, one after another, do what those on the table do, if each mirrors
its own (`Mirrors`) where its key is covered. -/
theorem within_release_each {t : Table} {f : κ → Holding → Effect Holding α}
    {g : κ → Table → Effect Table α} {keyOf : κ → String}
    (hstep : ∀ k h, h.Covers (keyOf k) → t.Mirrors (f k) (g k) h) {items : List κ} {h : Holding}
    (hc : ∀ k ∈ items, h.Covers (keyOf k)) :
    (Effect.each f items h).within t.release = Effect.each g items (t.release h) := by
  induction items generalizing h with
  | nil => rfl
  | cons k rest ih =>
    obtain ⟨hfg, hkeeps⟩ := hstep k h (hc k (by simp))
    have hrest := ih fun j hj => hkeeps _ (hc j (by simp [hj]))
    rw [Effect.each_cons, Effect.each_cons, ← hfg]
    simp only [Effect.within] at hrest ⊢
    rw [← hrest]

/-- A batch of operations on the buckets that it holds is a row of operations on the table, if each
mirrors its own (`Mirrors`). -/
theorem within_release_hold {t : Table} {f : κ → Holding → Effect Holding α}
    {g : κ → Table → Effect Table α} {keyOf : κ → String}
    (hstep : ∀ k h, h.Covers (keyOf k) → t.Mirrors (f k) (g k) h) (items : List κ) :
    (Effect.each f items (t.hold (items.map keyOf))).within t.release = Effect.each g items t := by
  rw [within_release_each hstep fun k hk => covers_hold (List.mem_map_of_mem hk), release_hold]

end

/-- Writing a pair (`Table.write`), with the key beside the outcome, as `Holding.write` gives it. -/
def writePair (pair : String × String) (t : Table) : Effect Table (String × WriteOutcome) :=
  (t.write pair.1 pair.2).map fun o => (pair.1, o)

/-- Deleting a key (`Table.delete`), with the key beside the outcome, as `Holding.delete` gives
it. -/
def deleteKey (key : String) (t : Table) : Effect Table (String × DeleteOutcome) :=
  (t.delete key).map fun o => (key, o)

/-- The table behind `writePair` is that of `Table.write`. -/
theorem state_writePair (pair : String × String) (t : Table) :
    (writePair pair t).state = (t.write pair.1 pair.2).state := rfl

/-- The table behind `deleteKey` is that of `Table.delete`. -/
theorem state_deleteKey (key : String) (t : Table) :
    (deleteKey key t).state = (t.delete key).state := rfl

/-- Dropping a client from the subscribers of a key, with the index left as it is, as
`Holding.unlink` does on a held bucket. -/
def unlinkKey (client key : String) (t : Table) : Effect Table Bool :=
  match route key with
  | none => .pure false t
  | some i =>
    let b := t.bucket i
    ⟨b.isSubscribed key client, [], t.setBucket i (b.unsubscribe key client)⟩

/-- To write into a held bucket does what `writePair` does on the table. -/
theorem mirrors_write (t : Table) (pair : String × String) (h : Holding)
    (hc : h.Covers pair.1) : t.Mirrors (Holding.write pair) (writePair pair) h := by
  cases hr : route pair.1 with
  | none =>
    rw [Mirrors, Holding.write, Holding.bucket?_eq_none hr, writePair, write, hr]
    exact ⟨rfl, fun _ h => h⟩
  | some i =>
    obtain ⟨b, hb⟩ := Option.isSome_iff_exists.1 (hc i hr)
    rw [Mirrors, Holding.write, Holding.bucket?_eq_some hr hb, writePair, write, hr]
    refine ⟨?_, fun key hk => hk.setBucket i _ _⟩
    simp only [Effect.within, Effect.map, bucket_release_of_held hb]
    congr 1
    exact release_setBucket t h i _ h.index

/-- To delete from a held bucket does what `deleteKey` does on the table. -/
theorem mirrors_delete (t : Table) (key : String) (h : Holding) (hc : h.Covers key) :
    t.Mirrors (Holding.delete key) (deleteKey key) h := by
  cases hr : route key with
  | none =>
    rw [Mirrors, Holding.delete, Holding.bucket?_eq_none hr, deleteKey, delete, hr]
    exact ⟨rfl, fun _ h => h⟩
  | some i =>
    obtain ⟨b, hb⟩ := Option.isSome_iff_exists.1 (hc i hr)
    rw [Mirrors, Holding.delete, Holding.bucket?_eq_some hr hb, deleteKey, delete, hr]
    refine ⟨?_, fun key hk => hk.setBucket i _ _⟩
    simp only [Effect.within, Effect.map, bucket_release_of_held hb]
    congr 1
    exact release_setBucket t h i _ _

/-- To drop a client from a held bucket does what `unlinkKey` does on the table. -/
theorem mirrors_unlink (t : Table) (client key : String) (h : Holding) (hc : h.Covers key) :
    t.Mirrors (Holding.unlink client key) (unlinkKey client key) h := by
  cases hr : route key with
  | none =>
    rw [Mirrors, Holding.unlink, Holding.bucket?_eq_none hr, unlinkKey, hr]
    exact ⟨rfl, fun _ h => h⟩
  | some i =>
    obtain ⟨b, hb⟩ := Option.isSome_iff_exists.1 (hc i hr)
    rw [Mirrors, Holding.unlink, Holding.bucket?_eq_some hr hb, unlinkKey, hr]
    refine ⟨?_, fun key hk => hk.setBucket i _ _⟩
    simp only [Effect.within, bucket_release_of_held hb]
    congr 1
    exact release_setBucket t h i _ h.index

/-! ## Batches -/

/-- To write a batch is to write its pairs one after another in key order: the same results, the
same notices and the same table. -/
theorem writeMany_eq_each (t : Table) (pairs : List (String × String)) :
    t.writeMany pairs = Effect.each writePair (inKeyOrder (·.1) pairs) t :=
  within_release_hold (mirrors_write t) _

/-- To delete a batch is to delete its keys one after another in key order: the same results, the
same notices and the same table. -/
theorem deleteMany_eq_each (t : Table) (keys : List String) :
    t.deleteMany keys = Effect.each deleteKey (inKeyOrder id keys) t := by
  have h := within_release_hold (mirrors_delete t) (inKeyOrder id keys)
  rwa [List.map_id'] at h

/-- In key order stand the items of a batch by their keys, and those of one key as they stood in the
batch. So of two writes of one key the later counts. -/
theorem inKeyOrder_stable {α : Type} (key : α → String) (batch : List α) :
    (inKeyOrder key batch).Pairwise (fun a b => key a ≤ key b) ∧ (inKeyOrder key batch).Perm batch ∧
      ∀ k, (inKeyOrder key batch).filter (key · == k) = batch.filter (key · == k) := by
  have htrans : ∀ a b c : α, decide (key a ≤ key b) = true → decide (key b ≤ key c) = true →
      decide (key a ≤ key c) = true := by
    simp only [decide_eq_true_eq]
    exact fun _ _ _ => String.le_trans
  have htotal : ∀ a b : α, (decide (key a ≤ key b) || decide (key b ≤ key a)) = true := by
    simp only [Bool.or_eq_true, decide_eq_true_eq]
    exact fun a b => String.le_total (key a) (key b)
  have hperm : (inKeyOrder key batch).Perm batch := List.mergeSort_perm batch _
  refine ⟨?_, hperm, fun k => ?_⟩
  · exact (List.pairwise_mergeSort htrans htotal batch).imp of_decide_eq_true
  · -- items of one key are in order as they stand, so the sort keeps them as a sublist
    have hsorted : (batch.filter (key · == k)).Pairwise
        fun a b => decide (key a ≤ key b) = true := by
      refine List.pairwise_of_forall_mem_list fun a ha b hb => ?_
      have hka : key a = k := by simpa using (List.mem_filter.1 ha).2
      have hkb : key b = k := by simpa using (List.mem_filter.1 hb).2
      rw [hka, hkb]
      exact decide_eq_true (String.le_refl k)
    have hkept := List.sublist_mergeSort htrans htotal hsorted List.filter_sublist
    have hsub := hkept.filter (key · == k)
    rw [List.filter_filter, List.filter_congr fun a _ => Bool.and_self _] at hsub
    exact (hsub.eq_of_length (hperm.filter _).length_eq.symm).symm

/-- What is read in a batch is what single reads give (`Table.read`), in key order. -/
theorem readMany_eq_map (t : Table) (keys : List String) :
    t.readMany keys = (inKeyOrder id keys).map fun key => (key, t.read key) := by
  refine List.map_congr_left fun key hkey => congrArg (Prod.mk key) ?_
  cases hr : route key with
  | none => simp [Holding.read, Holding.bucket?_eq_none hr, read, hr]
  | some i =>
    have hheld := find?_hold t (inKeyOrder id keys) i
    rw [if_pos (List.mem_filterMap.2 ⟨key, hkey, hr⟩)] at hheld
    rw [Holding.read, Holding.bucket?_eq_some hr hheld, read, hr]
    rfl

/-- To drop a client from some keys (`unlink`) is to drop it from one after another
(`unlinkKey`). -/
theorem unlink_eq (t : Table) (client : String) (keys : List String) :
    t.unlink client keys =
      let unlinked := Effect.each (unlinkKey client) keys t
      (unlinked.result.count true, unlinked.state) := by
  have h := within_release_hold (mirrors_unlink t client) keys
  rw [List.map_id'] at h
  rw [← h]
  rfl

/-- A client that leaves by `removeAll` is dropped from its keys one after another (`unlinkKey`),
behind `takeKeys`. -/
theorem removeAll_eq (t : Table) (client : String) :
    t.removeAll client =
      let unlinked := Effect.each (unlinkKey client) (t.keysOf client) (t.takeKeys client).2
      (unlinked.result.count true, unlinked.state) :=
  unlink_eq (t.takeKeys client).2 client (t.keysOf client)

end Table

end KeyWatch
