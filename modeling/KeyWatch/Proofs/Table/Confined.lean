import KeyWatch.Proofs.Table.Past

/-!
# Operations that keep to some buckets

An operation on keys looks at the buckets of these keys and at no others, and it changes no others
(`Table.Confined`). The index it changes without looking at it. So two operations that are confined
to different buckets do not notice each other, and it does not matter which of them is first
(`Table.Confined.comm`). Nothing has to be said of the index for that: both orders end in consistent
tables, and of a consistent table the index is determined by the buckets
(`Table.Consistent.ext_bucket`).

Operations on one key are confined to its bucket (`Table.Confined.of_bucket`), and rows of
operations to the buckets to which all of the row are (`Table.Confined.each`). A batch is such a
row.
-/

namespace KeyWatch

namespace Table

variable {α β κ : Type} {t u : Table}

/-- An operation keeps to some buckets: what it does to them, and how it goes, depends on them
alone, and the others stay as they are. It also keeps tables consistent. -/
structure Confined (within : BucketIndex → Prop) (f : Table → Effect Table α) : Prop where
  consistent : ∀ t, t.Consistent → (f t).state.Consistent
  outside : ∀ t i, ¬within i → (f t).state.bucket i = t.bucket i
  result : ∀ t u, (∀ i, within i → t.bucket i = u.bucket i) → (f t).result = (f u).result
  notices : ∀ t u, (∀ i, within i → t.bucket i = u.bucket i) → (f t).notices = (f u).notices
  inside : ∀ t u, (∀ i, within i → t.bucket i = u.bucket i) →
    ∀ i, within i → (f t).state.bucket i = (f u).state.bucket i

/-- Consistent tables with the same buckets are the same, since the buckets determine the index. -/
theorem Consistent.ext_bucket (h : t.Consistent) (hu : u.Consistent)
    (hb : ∀ i, t.bucket i = u.bucket i) : t = u :=
  h.ext hu (fun i => by rw [hb]) fun key => by
    unfold listOf
    split
    · rfl
    · rw [hb]

namespace Confined

variable {within other : BucketIndex → Prop} {f : Table → Effect Table α}

/-! ## Two operations -/

/-- An operation goes behind another that is confined to other buckets as it goes without it: the
same result, the same notices and the same changes of its own buckets. -/
theorem undisturbed {g : Table → Effect Table β} (hf : Confined within f) (hg : Confined other g)
    (hapart : ∀ i, within i → ¬other i) (t : Table) :
    (f (g t).state).result = (f t).result ∧ (f (g t).state).notices = (f t).notices ∧
      ∀ i, within i → (f (g t).state).state.bucket i = (f t).state.bucket i := by
  have hsame : ∀ i, within i → (g t).state.bucket i = t.bucket i :=
    fun i hi => hg.outside t i (hapart i hi)
  exact ⟨hf.result _ _ hsame, hf.notices _ _ hsame, hf.inside _ _ hsame⟩

/-- Two operations that are confined to different buckets leave the same table in either order
(`undisturbed`, `Consistent.ext_bucket`). -/
theorem comm {g : Table → Effect Table β} (hf : Confined within f) (hg : Confined other g)
    (hapart : ∀ i, within i → ¬other i) (h : t.Consistent) :
    (g (f t).state).state = (f (g t).state).state := by
  obtain ⟨-, -, hin⟩ := hf.undisturbed hg hapart t
  obtain ⟨-, -, hin'⟩ := hg.undisturbed hf (fun i hi hw => hapart i hw hi) t
  refine (hg.consistent _ (hf.consistent t h)).ext_bucket (hf.consistent _ (hg.consistent t h))
    fun i => ?_
  by_cases hi : within i
  · rw [hg.outside _ i (hapart i hi), hin i hi]
  · rw [hf.outside _ i hi]
    by_cases ho : other i
    · exact hin' i ho
    · rw [hg.outside _ i ho, hg.outside _ i ho, hf.outside _ i hi]

/-! ## Rows of operations -/

/-- What is confined to some buckets is confined to more. -/
theorem mono (h : Confined within f) (hsub : ∀ i, within i → other i) : Confined other f where
  consistent := h.consistent
  outside t i hi := h.outside t i fun hw => hi (hsub i hw)
  result t u hsame := h.result t u fun i hi => hsame i (hsub i hi)
  notices t u hsame := h.notices t u fun i hi => hsame i (hsub i hi)
  inside t u hsame i hi := by
    by_cases hw : within i
    · exact h.inside t u (fun j hj => hsame j (hsub j hj)) i hw
    · rw [h.outside t i hw, h.outside u i hw, hsame i hi]

/-- What an operation is confined to does not depend on how its result is reported
(`Effect.map`). -/
theorem map (h : Confined within f) (report : α → β) :
    Confined within fun t => (f t).map report where
  consistent := h.consistent
  outside := h.outside
  result t u hsame := congrArg report (h.result t u hsame)
  notices := h.notices
  inside := h.inside

/-- A row of operations (`Effect.each`) keeps to the buckets to which all of them keep. -/
theorem each {op : κ → Table → Effect Table α} {items : List κ}
    (h : ∀ k ∈ items, Confined within (op k)) : Confined within (Effect.each op items) := by
  induction items with
  | nil =>
    exact ⟨fun _ ht => ht, fun _ _ _ => rfl, fun _ _ _ => rfl, fun _ _ _ => rfl,
      fun _ _ hsame => hsame⟩
  | cons k rest ih =>
    have hfirst := h k List.mem_cons_self
    have hrest := ih fun j hj => h j (List.mem_cons_of_mem k hj)
    refine ⟨fun t ht => ?_, fun t i hi => ?_, fun t u hsame => ?_, fun t u hsame => ?_,
      fun t u hsame => ?_⟩
    · exact hrest.consistent _ (hfirst.consistent t ht)
    · exact (hrest.outside _ i hi).trans (hfirst.outside t i hi)
    · exact congrArg₂ List.cons (hfirst.result t u hsame)
        (hrest.result _ _ (hfirst.inside t u hsame))
    · exact congrArg₂ (· ++ ·) (hfirst.notices t u hsame)
        (hrest.notices _ _ (hfirst.inside t u hsame))
    · exact hrest.inside _ _ (hfirst.inside t u hsame)

/-! ## Operations on one key -/

/-- An operation on a key that changes nothing if the key has no bucket, and else does to the bucket
what depends on the bucket alone, is `Confined` to the bucket. -/
theorem of_bucket {key : String} (hkeep : ∀ t, t.Consistent → (f t).state.Consistent)
    (hnone : route key = none → ∃ a, ∀ t, f t = .pure a t)
    (hsome : ∀ i, route key = some i → ∃ g : Bucket → Effect Bucket α, ∀ t,
      (f t).result = (g (t.bucket i)).result ∧ (f t).notices = (g (t.bucket i)).notices ∧
        ∀ j, (f t).state.bucket j = if j = i then (g (t.bucket i)).state else t.bucket j) :
    Confined (route key = some ·) f := by
  cases hr : route key with
  | none =>
    obtain ⟨a, ha⟩ := hnone hr
    refine ⟨hkeep, fun t i _ => ?_, fun t u _ => ?_, fun t u _ => ?_, fun t u _ i hi => ?_⟩
    · rw [ha]
      rfl
    · rw [ha, ha]
      rfl
    · rw [ha, ha]
      rfl
    · cases hi
  | some j =>
    obtain ⟨g, hg⟩ := hsome j hr
    refine ⟨hkeep, fun t i hi => ?_, fun t u hsame => ?_, fun t u hsame => ?_,
      fun t u hsame i hi => ?_⟩
    · rw [(hg t).2.2, if_neg fun he => hi (congrArg some he.symm)]
    · rw [(hg t).1, (hg u).1, hsame j rfl]
    · rw [(hg t).2.1, (hg u).2.1, hsame j rfl]
    · obtain rfl := Option.some.inj hi
      rw [(hg t).2.2, (hg u).2.2, if_pos rfl, if_pos rfl, hsame j rfl]

/-- To `write` a pair keeps to the bucket of the key. -/
theorem write (key value : String) : Confined (route key = some ·) (·.write key value) := by
  refine of_bucket (fun t ht => ht.write key value) (fun hr => ⟨.rejected, fun t => ?_⟩)
    fun i hr => ⟨fun b => b.put key value, fun t => ?_⟩
  · rw [Table.write, hr]
  · rw [Table.write, hr]
    exact ⟨rfl, rfl, fun j => bucket_setBucket t i j _⟩

/-- To `delete` a key keeps to the bucket of the key. -/
theorem delete (key : String) : Confined (route key = some ·) (·.delete key) := by
  refine of_bucket (fun t ht => ht.delete key) (fun hr => ⟨.missing, fun t => ?_⟩)
    fun i hr => ⟨fun b => (b.remove key).map Prod.fst, fun t => ?_⟩
  · rw [Table.delete, hr]
  · rw [Table.delete, hr]
    exact ⟨rfl, rfl, fun j => bucket_setBucket t i j _⟩

/-- A batch of pairs keeps to the buckets of the keys, as a row of writes does
(`writeMany_eq_each`). -/
theorem writeMany (pairs : List (String × String)) :
    Confined (· ∈ (pairs.map Prod.fst).filterMap route) (·.writeMany pairs) := by
  have hrow : (fun t : Table => t.writeMany pairs) =
      Effect.each writePair (inKeyOrder (·.1) pairs) :=
    funext fun t => t.writeMany_eq_each pairs
  obtain ⟨-, hperm, -⟩ := inKeyOrder_stable (fun pair : String × String => pair.1) pairs
  rw [hrow]
  refine each fun pair hpair => ((write pair.1 pair.2).map _).mono fun i hi => ?_
  exact List.mem_filterMap.2 ⟨_, List.mem_map_of_mem (hperm.mem_iff.1 hpair), hi⟩

/-- A batch of keys to delete keeps to their buckets, as a row of deletions does
(`deleteMany_eq_each`). -/
theorem deleteMany (keys : List String) :
    Confined (· ∈ keys.filterMap route) (·.deleteMany keys) := by
  have hrow : (fun t : Table => t.deleteMany keys) = Effect.each deleteKey (inKeyOrder id keys) :=
    funext fun t => t.deleteMany_eq_each keys
  obtain ⟨-, hperm, -⟩ := inKeyOrder_stable (id : String → String) keys
  rw [hrow]
  refine each fun key hkey => ((delete key).map _).mono fun i hi => ?_
  exact List.mem_filterMap.2 ⟨key, hperm.mem_iff.1 hkey, hi⟩

end Confined

end Table

end KeyWatch
