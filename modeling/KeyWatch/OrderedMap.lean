/-!
# Finite maps in key order

A map is its list of bindings in strictly ascending key order, and the order is part of the type.
So a map has one representation: two maps that answer every look-up alike are equal
(`OrderedMap.ext_find?`), and the keys come out sorted (`OrderedMap.keys`) without a sort.
Look-up after a change is given by `find?_insert` and `find?_erase`.
-/

namespace KeyWatch

/-- A finite map from keys `κ` to values `α`, held as its `bindings`. That the keys ascend is part
of the map (`ascending`), so one map has one representation (`OrderedMap.ext_find?`). -/
structure OrderedMap (κ α : Type) [LT κ] where
  bindings : List (κ × α)
  ascending : bindings.Pairwise (fun a b => a.1 < b.1)

/-! The orders of the two kinds of keys, texts and numbers below a bound. -/

/-- The order of texts is transitive, as `OrderedMap.insert` asks of the order of its keys. -/
instance transString : Trans (α := String) (· < ·) (· < ·) (· < ·) := ⟨String.lt_trans⟩

/-- Two texts of which neither comes before the other are equal, as `OrderedMap.insert` asks of the
order of its keys. -/
instance trichotomousString : Std.Trichotomous (α := String) (· < ·) :=
  ⟨fun _ _ hlt hgt => String.le_antisymm hgt hlt⟩

/-- The order of the numbers below `n` is transitive, as `OrderedMap.insert` asks of the order of
its keys. -/
instance transFin {n : Nat} : Trans (α := Fin n) (· < ·) (· < ·) (· < ·) := ⟨Fin.lt_trans⟩

/-- Two numbers below `n` of which neither comes before the other are equal, as `OrderedMap.insert`
asks of the order of its keys. -/
instance trichotomousFin {n : Nat} : Std.Trichotomous (α := Fin n) (· < ·) :=
  ⟨fun _ _ hlt hgt => Fin.le_antisymm (Fin.not_lt.1 hgt) (Fin.not_lt.1 hlt)⟩

namespace OrderedMap

section Definitions

variable {κ α : Type} [LT κ]

/-- The map without bindings, which finds no key (`find?_empty`). -/
def empty : OrderedMap κ α := ⟨[], .nil⟩

instance : Inhabited (OrderedMap κ α) := ⟨empty⟩

instance [DecidableEq κ] [DecidableEq α] : DecidableEq (OrderedMap κ α)
  | ⟨a, _⟩, ⟨b, _⟩ => decidable_of_iff (a = b) (by simp)

/-- The value that a key is bound to, or `none`. A key is bound at most once (`nodup_keys`), so the
first binding of the list decides. -/
def find? [DecidableEq κ] (m : OrderedMap κ α) (k : κ) : Option α :=
  m.bindings.lookup k

/-- Whether a key is bound, that is, whether `find?` gives a value for it. -/
def contains [DecidableEq κ] (m : OrderedMap κ α) (k : κ) : Bool :=
  (m.find? k).isSome

/-- The bound keys, in ascending order and each once (`nodup_keys`). -/
def keys (m : OrderedMap κ α) : List κ := m.bindings.map (·.1)

/-- The number of bindings, which is the number of `keys`. -/
def size (m : OrderedMap κ α) : Nat := m.bindings.length

/-- A binding put into an ascending list before the first greater key. A binding of the same key
gives way to it, so the list stays strictly ascending (`ascending_place`). -/
def place [DecidableLT κ] (k : κ) (a : α) : List (κ × α) → List (κ × α)
  | [] => [(k, a)]
  | (k', a') :: rest =>
    if k < k' then (k, a) :: (k', a') :: rest
    else if k' < k then (k', a') :: place k a rest
    else (k, a) :: rest

/-- The bindings that `place` leaves are the one it puts in and those that were there before. -/
theorem mem_place [DecidableLT κ] {k : κ} {a : α} {p : κ × α} {l : List (κ × α)}
    (h : p ∈ place k a l) : p = (k, a) ∨ p ∈ l := by
  induction l with
  | nil => simpa [place] using h
  | cons q rest ih =>
    obtain ⟨k', a'⟩ := q
    rw [place] at h
    split at h
    · simpa using h
    · split at h
      · rcases List.mem_cons.1 h with rfl | h
        · simp
        · rcases ih h with h | h <;> simp [h]
      · rcases List.mem_cons.1 h with rfl | h <;> simp [*]

/-- A list that ascends still ascends with a binding put in by `place`, which is what `insert` owes
to the type of maps. -/
theorem ascending_place [DecidableLT κ] [Trans (α := κ) (· < ·) (· < ·) (· < ·)]
    [Std.Trichotomous (α := κ) (· < ·)] (k : κ) (a : α) {l : List (κ × α)}
    (h : l.Pairwise (fun a b => a.1 < b.1)) :
    (place k a l).Pairwise (fun a b => a.1 < b.1) := by
  induction l with
  | nil => simp [place]
  | cons q rest ih =>
    obtain ⟨k', a'⟩ := q
    obtain ⟨hq, hr⟩ := List.pairwise_cons.1 h
    rw [place]
    split
    case isTrue hlt =>
      refine List.pairwise_cons.2 ⟨fun p hp => ?_, h⟩
      rcases List.mem_cons.1 hp with rfl | hp
      · exact hlt
      · exact Trans.trans hlt (hq p hp)
    case isFalse hlt =>
      split
      case isTrue hgt =>
        refine List.pairwise_cons.2 ⟨fun p hp => ?_, ih hr⟩
        rcases mem_place hp with rfl | hp
        · exact hgt
        · exact hq p hp
      case isFalse hgt =>
        have hk : k = k' := Std.Trichotomous.trichotomous k k' hlt hgt
        exact List.pairwise_cons.2 ⟨fun p hp => hk ▸ hq p hp, hr⟩

/-- The map with a key bound to a value (`place`), whatever the key was bound to before. -/
def insert [DecidableLT κ] [Trans (α := κ) (· < ·) (· < ·) (· < ·)]
    [Std.Trichotomous (α := κ) (· < ·)] (m : OrderedMap κ α) (k : κ) (a : α) : OrderedMap κ α :=
  ⟨place k a m.bindings, ascending_place k a m.ascending⟩

/-- The map without a key. The other bindings keep their order, so nothing has to be sorted. -/
def erase [DecidableEq κ] (m : OrderedMap κ α) (k : κ) : OrderedMap κ α :=
  ⟨m.bindings.filter (fun p => !(p.1 == k)), m.ascending.filter _⟩

end Definitions

section Lemmas

variable {κ α : Type}

/-- A look-up in a list of bindings takes the first binding of the key, and looks behind it for any
other key. -/
theorem lookup_cons [DecidableEq κ] (p : κ × α) (l : List (κ × α)) (j : κ) :
    (p :: l).lookup j = if j = p.1 then some p.2 else l.lookup j := by
  obtain ⟨k, a⟩ := p
  rw [List.lookup_cons]
  rcases Decidable.em (j = k) with h | h
  · rw [if_pos h, beq_iff_eq.2 h]
  · rw [if_neg h, beq_eq_false_iff_ne.2 h]

variable [LT κ]

/-- The map `empty` binds no key. -/
@[simp] theorem find?_empty [DecidableEq κ] (k : κ) : (empty : OrderedMap κ α).find? k = none := rfl

/-- A key that is less than every key of a list is not bound in it. So a look-up in an ascending
list may stop at the first greater key. -/
theorem lookup_eq_none_of_lt [DecidableEq κ] [Std.Irrefl (α := κ) (· < ·)] {k : κ}
    {l : List (κ × α)} (h : ∀ p ∈ l, k < p.1) : l.lookup k = none := by
  induction l with
  | nil => rfl
  | cons p rest ih =>
    have hne : k ≠ p.1 := by
      intro he
      have hp := h p List.mem_cons_self
      rw [← he] at hp
      exact Std.Irrefl.irrefl k hp
    rw [lookup_cons, if_neg hne]
    exact ih fun q hq => h q (List.mem_cons_of_mem p hq)

/-- A look-up behind `place` finds the new value at its key, and at any other key what was there
before. -/
theorem lookup_place [DecidableEq κ] [DecidableLT κ] [Std.Irrefl (α := κ) (· < ·)]
    [Std.Trichotomous (α := κ) (· < ·)] (k j : κ) (a : α) (l : List (κ × α)) :
    (place k a l).lookup j = if j = k then some a else l.lookup j := by
  induction l with
  | nil => rw [place, lookup_cons]
  | cons q rest ih =>
    obtain ⟨k', a'⟩ := q
    rw [place]
    split
    case isTrue => rw [lookup_cons]
    case isFalse hlt =>
      split
      case isTrue hgt =>
        have hne : k' ≠ k := fun he => Std.Irrefl.irrefl k (he ▸ hgt)
        rw [lookup_cons, lookup_cons, ih]
        rcases Decidable.em (j = k') with rfl | hj
        · rw [if_pos rfl, if_neg hne, if_pos rfl]
        · rw [if_neg hj, if_neg hj]
      case isFalse hgt =>
        obtain rfl : k = k' := Std.Trichotomous.trichotomous k k' hlt hgt
        rw [lookup_cons, lookup_cons]
        rcases Decidable.em (j = k) with hj | hj
        · rw [if_pos hj, if_pos hj]
        · rw [if_neg hj, if_neg hj, if_neg hj]

/-- A look-up behind `insert` finds the new value at its key, and at any other key what the map
held. -/
theorem find?_insert [DecidableEq κ] [DecidableLT κ] [Std.Irrefl (α := κ) (· < ·)]
    [Trans (α := κ) (· < ·) (· < ·) (· < ·)] [Std.Trichotomous (α := κ) (· < ·)]
    (m : OrderedMap κ α) (k j : κ) (a : α) :
    (m.insert k a).find? j = if j = k then some a else m.find? j :=
  lookup_place k j a m.bindings

/-- A look-up behind `erase` finds nothing at the erased key, and at any other key what the map
held. -/
theorem find?_erase [DecidableEq κ] (m : OrderedMap κ α) (k j : κ) :
    (m.erase k).find? j = if j = k then none else m.find? j := by
  simp only [find?, erase]
  induction m.bindings with
  | nil => split <;> rfl
  | cons p rest ih =>
    rcases Decidable.em (p.1 = k) with hp | hp
    · rw [List.filter_cons_of_neg (by simp [hp]), ih, lookup_cons, hp]
      split <;> rfl
    · rw [List.filter_cons_of_pos (by simp [hp]), lookup_cons, lookup_cons, ih]
      rcases Decidable.em (j = p.1) with rfl | hj
      · rw [if_pos rfl, if_neg hp, if_pos rfl]
      · rw [if_neg hj, if_neg hj]

/-- The bindings of a map are the pairs that `find?` finds. So what holds of every binding may be
proved by look-ups. -/
theorem mem_bindings_iff [DecidableEq κ] [Std.Irrefl (α := κ) (· < ·)]
    (m : OrderedMap κ α) (k : κ) (a : α) : (k, a) ∈ m.bindings ↔ m.find? k = some a := by
  obtain ⟨l, hl⟩ := m
  simp only [find?]
  induction l with
  | nil => simp
  | cons p rest ih =>
    obtain ⟨hp, hr⟩ := List.pairwise_cons.1 hl
    rw [List.mem_cons, lookup_cons]
    rcases Decidable.em (k = p.1) with rfl | hk
    · rw [if_pos rfl, Option.some_inj]
      constructor
      · rintro (h | h)
        · rw [← h]
        · exact absurd (hp _ h) (Std.Irrefl.irrefl _)
      · rintro rfl
        exact .inl rfl
    · rw [if_neg hk, ← ih hr]
      exact or_iff_right fun h => hk (congrArg Prod.fst h)

/-- Two maps that answer every `find?` alike are equal. The ascending order leaves no choice in how
the same bindings are listed. -/
theorem ext_find? [DecidableEq κ] [Std.Irrefl (α := κ) (· < ·)]
    [Trans (α := κ) (· < ·) (· < ·) (· < ·)] {m n : OrderedMap κ α}
    (h : ∀ k, m.find? k = n.find? k) : m = n := by
  obtain ⟨l, hl⟩ := m
  obtain ⟨r, hr⟩ := n
  congr 1
  simp only [find?] at h
  induction l generalizing r with
  | nil =>
    cases r with
    | nil => rfl
    | cons q r =>
      have hq := h q.1
      rw [lookup_cons, if_pos rfl] at hq
      cases hq
  | cons p l ih =>
    cases r with
    | nil =>
      have hp := h p.1
      rw [lookup_cons, if_pos rfl] at hp
      cases hp
    | cons q r =>
      obtain ⟨hp, hl'⟩ := List.pairwise_cons.1 hl
      obtain ⟨hq, hr'⟩ := List.pairwise_cons.1 hr
      have hkey : p.1 = q.1 := by
        refine Decidable.byContradiction fun hne => ?_
        have hpr := h p.1
        have hql := h q.1
        rw [lookup_cons, lookup_cons, if_pos rfl, if_neg hne] at hpr
        rw [lookup_cons, lookup_cons, if_neg (Ne.symm hne), if_pos rfl] at hql
        have hmemr : (p.1, p.2) ∈ r := (mem_bindings_iff ⟨r, hr'⟩ p.1 p.2).2 hpr.symm
        have hmeml : (q.1, q.2) ∈ l := (mem_bindings_iff ⟨l, hl'⟩ q.1 q.2).2 hql
        exact Std.Irrefl.irrefl p.1 (Trans.trans (hp _ hmeml) (hq _ hmemr))
      have hvalue : p.2 = q.2 := by
        have hpq := h p.1
        rw [lookup_cons, lookup_cons, if_pos rfl, if_pos hkey] at hpq
        exact Option.some.inj hpq
      obtain rfl : p = q := Prod.ext hkey hvalue
      congr 1
      refine ih hl' _ hr' fun k => ?_
      rcases Decidable.em (k = p.1) with rfl | hk
      · rw [lookup_eq_none_of_lt hp, lookup_eq_none_of_lt hq]
      · have hpq := h k
        rwa [lookup_cons, lookup_cons, if_neg hk, if_neg hk] at hpq

/-- A map is `empty` if and only if its list of bindings is. -/
theorem eq_empty_iff {m : OrderedMap κ α} : m = .empty ↔ m.bindings = [] := by
  obtain ⟨l, hl⟩ := m
  simp [empty]

/-- No key is bound twice, since the `keys` ascend strictly. -/
theorem nodup_keys [Std.Irrefl (α := κ) (· < ·)] (m : OrderedMap κ α) : m.keys.Nodup := by
  refine List.pairwise_map.2 (m.ascending.imp fun {a b} hlt he => ?_)
  rw [he] at hlt
  exact Std.Irrefl.irrefl b.1 hlt

/-- The `keys` of a map are those that it `contains`. -/
theorem mem_keys_iff [DecidableEq κ] [Std.Irrefl (α := κ) (· < ·)] (m : OrderedMap κ α) (k : κ) :
    k ∈ m.keys ↔ m.contains k = true := by
  simp only [keys, contains, Option.isSome_iff_exists, List.mem_map]
  constructor
  · rintro ⟨⟨j, a⟩, hmem, rfl⟩
    exact ⟨a, (mem_bindings_iff m j a).1 hmem⟩
  · rintro ⟨a, ha⟩
    exact ⟨(k, a), (mem_bindings_iff m k a).2 ha, rfl⟩

end Lemmas

end OrderedMap

end KeyWatch
