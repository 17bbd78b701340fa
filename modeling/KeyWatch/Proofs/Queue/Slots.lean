import Mathlib.Data.Nat.ModEq
import KeyWatch.Queue.Basic

/-!
# What stands in the slots of a ring

Counted from the second cursor on, the slots of a ring hold its items and then nothing
(`Ring.Carries`). So the slot where the next item is to come is empty as long as there is room
(`Ring.Carries.vacant`), the slot of the next to go holds the first item, and a ring that takes an
item in or gives one out carries the list that is longer at its end or shorter at its front
(`Ring.Carries.insert`, `Ring.Carries.remove`), however often the cursors went round.
-/

namespace KeyWatch

variable {α : Type}

/-- Two slots at most a round apart are the same only if they are equally far from the cursor, which
is why no item of a ring is written over. -/
theorem add_mod_inj {c j k n : Nat} (hj : j < n) (hk : k < n) (h : (c + j) % n = (c + k) % n) :
    j = k :=
  (Nat.ModEq.add_left_cancel' c h).eq_of_lt_of_lt hj hk

namespace Ring

/-- A ring that carries items: from the second cursor on its slots hold them, in order, and then
nothing. It is the part of `Queue.Holds` that concerns the ring. -/
structure Carries (r : Ring α) (items : List α) : Prop where
  fits : items.length ≤ r.capacity
  size : r.size = items.length
  consume : r.consume < r.capacity
  produce : r.produce = (r.consume + items.length) % r.capacity
  slots : ∀ k < r.capacity, r.slot ((r.consume + k) % r.capacity) = items[k]?

/-- Behind a `set` the slot has what was put there, and every other slot what it had. -/
theorem slot_set {r : Ring α} {i : Nat} (hi : i < r.capacity) (x : Option α) (j : Nat) :
    ((r.slots.set i x)[j]?).join = if j = i then x else r.slot j := by
  have hlt : i < r.slots.length := hi
  rw [List.getElem?_set, slot]
  rcases Decidable.eq_or_ne j i with rfl | hj
  · rw [if_pos rfl, if_pos hlt, if_pos rfl]
    rfl
  · rw [if_neg (Ne.symm hj), if_neg hj]

/-- What is in a slot that there is, in the two forms in which the ring is read (`Ring.slots`,
`Ring.slot`). -/
theorem getElem?_slots {r : Ring α} {i : Nat} (hi : i < r.capacity) :
    r.slots[i]? = some (r.slot i) := by
  have hlt : i < r.slots.length := hi
  rw [slot, List.getElem?_eq_getElem hlt]
  rfl

namespace Carries

variable {r : Ring α} {items : List α}

/-- A new ring of at least one slot carries nothing (`Ring.empty`). -/
theorem empty {capacity : Nat} (h : 0 < capacity) : (Ring.empty capacity : Ring α).Carries [] where
  fits := Nat.zero_le _
  size := rfl
  consume := by
    rw [Ring.capacity, Ring.empty, List.length_replicate]
    exact h
  produce := (Nat.zero_mod _).symm
  slots k _ := slot_empty _ _

/-- To close a ring moves nothing in it, so it carries what it carried. -/
theorem shut (h : r.Carries items) (closed : Bool) : Carries { r with closed } items :=
  ⟨h.fits, h.size, h.consume, h.produce, h.slots⟩

/-- The cursor of the next item to come points at a slot that there is. -/
theorem produce_lt (h : r.Carries items) : r.produce < r.capacity := by
  rw [h.produce]
  exact Nat.mod_lt _ (Nat.zero_lt_of_lt h.consume)

/-- As long as there is room, the next item comes into an empty slot. -/
theorem vacant (h : r.Carries items) (hroom : items.length < r.capacity) :
    r.slots[r.produce]? = some none := by
  have hslot := h.slots items.length hroom
  rw [← h.produce, List.getElem?_eq_none (Nat.le_refl _)] at hslot
  rw [getElem?_slots h.produce_lt, hslot]

/-- The slot of the next item to go holds the first of the items carried, or nothing if there is
none. -/
theorem first (h : r.Carries items) : r.slots[r.consume]? = some items[0]? := by
  have hslot := h.slots 0 (Nat.zero_lt_of_lt h.consume)
  rw [Nat.add_zero, Nat.mod_eq_of_lt h.consume] at hslot
  rw [getElem?_slots h.consume, hslot]

/-- An open ring with room takes an item in by `insert?`, and carries it behind the others. -/
theorem insert (h : r.Carries items) (hopen : r.closed = false) (hroom : items.length < r.capacity)
    (x : α) :
    ∃ after, r.insert? x = some after ∧ after.Carries (items ++ [x]) ∧
      after.capacity = r.capacity ∧ after.closed = r.closed := by
  have hcapacity : (r.slots.set r.produce (some x)).length = r.capacity := List.length_set
  refine ⟨_, insert?_of_open hopen x, ⟨?_, ?_, ?_, ?_, fun k hk => ?_⟩, hcapacity, rfl⟩
  · rw [List.length_append, Ring.capacity, hcapacity]
    exact hroom
  · rw [List.length_append, ← h.size]
    rfl
  · rw [Ring.capacity, hcapacity]
    exact h.consume
  · show (r.produce + 1) % r.capacity =
      (r.consume + (items ++ [x]).length) % (r.slots.set _ _).length
    rw [hcapacity, h.produce, Nat.mod_add_mod, List.length_append]
    rfl
  · replace hk : k < r.capacity := hcapacity ▸ hk
    show ((r.slots.set r.produce (some x))[(r.consume + k) % (r.slots.set _ _).length]?).join = _
    rw [hcapacity, slot_set h.produce_lt]
    rcases Decidable.eq_or_ne k items.length with rfl | hlast
    · rw [if_pos h.produce.symm]
      exact (List.getElem?_concat_length).symm
    · have hne : (r.consume + k) % r.capacity ≠ r.produce := by
        rw [h.produce]
        exact fun he => hlast (add_mod_inj hk hroom he)
      rw [if_neg hne, h.slots k hk, List.getElem?_append]
      split
      case isTrue => rfl
      case isFalse hge =>
        rw [List.getElem?_eq_none (Nat.not_lt.1 hge), List.getElem?_eq_none]
        rw [List.length_singleton]
        omega

/-- A ring that carries items gives out the first of them by `remove?`, and carries the others. -/
theorem remove {x : α} {rest : List α} (h : r.Carries (x :: rest)) :
    ∃ after, r.remove? = some (some x, after) ∧ after.Carries rest ∧
      after.capacity = r.capacity ∧ after.closed = r.closed := by
  have hfits : rest.length + 1 ≤ r.capacity := h.fits
  have hsize : r.size = rest.length + 1 := h.size
  have hfirst : r.slot r.consume = some x :=
    Option.some.inj ((getElem?_slots h.consume).symm.trans h.first)
  have hremove := remove?_of_pos (r := r) (hsize ▸ Nat.succ_pos _)
  rw [hfirst] at hremove
  have hcapacity : (r.slots.set r.consume none).length = r.capacity := List.length_set
  refine ⟨_, hremove, ⟨?_, ?_, ?_, ?_, fun k hk => ?_⟩, hcapacity, rfl⟩
  · rw [Ring.capacity, hcapacity]
    omega
  · show r.size - 1 = rest.length
    omega
  · rw [Ring.capacity, hcapacity]
    exact Nat.mod_lt _ (Nat.zero_lt_of_lt h.consume)
  · show r.produce = (r.next r.consume + rest.length) % (r.slots.set _ _).length
    rw [hcapacity, next, Nat.mod_add_mod, h.produce, List.length_cons]
    congr 1
    omega
  · -- one place further on stands the item after; the slot that was emptied is now the last
    replace hk : k < r.capacity := hcapacity ▸ hk
    show ((r.slots.set r.consume none)[(r.next r.consume + k) % (r.slots.set _ _).length]?).join =
      rest[k]?
    have hmoved : (r.next r.consume + k) % r.capacity = (r.consume + (k + 1)) % r.capacity := by
      rw [next, Nat.mod_add_mod]
      congr 1
      omega
    rw [hcapacity, slot_set h.consume, hmoved]
    rcases Nat.lt_or_eq_of_le (Nat.succ_le_of_lt hk) with hlt | hlast
    · have hne : (r.consume + (k + 1)) % r.capacity ≠ r.consume := by
        intro he
        rw [← Nat.mod_eq_of_lt h.consume] at he
        have hzero := add_mod_inj (c := r.consume) (j := k + 1) (k := 0) hlt
          (Nat.zero_lt_of_lt h.consume) (by simpa using he)
        omega
      rw [if_neg hne, h.slots _ hlt]
      rfl
    · rw [show k + 1 = r.capacity from hlast, Nat.add_mod_right, Nat.mod_eq_of_lt h.consume,
        if_pos rfl, List.getElem?_eq_none]
      omega

/-- What a ring gives out by `remove?` is the first of its items, and it carries the others on. -/
theorem of_remove? {after : Ring α} {found : Option α} (h : r.Carries items)
    (hremove : r.remove? = some (found, after)) :
    ∃ x rest, items = x :: rest ∧ found = some x ∧ after.Carries rest := by
  cases items with
  | nil =>
    rw [remove?, h.size, if_pos List.length_nil] at hremove
    cases hremove
  | cons x rest =>
    obtain ⟨ring, hfirst, hrest, -⟩ := h.remove
    cases Option.some.inj (hfirst.symm.trans hremove)
    exact ⟨x, rest, rfl, rfl, hrest⟩

end Carries

end Ring

end KeyWatch
