/-!
# Rings of slots

A ring is a row of slots used in turn, with a cursor for the next item to come and one for the next
to go. It can be closed, and then takes no more items. The items stand in the slots from the second
cursor on, as many as the ring counts (`Ring.items`).
-/

namespace KeyWatch

/-- Slots used in turn: the slots, the cursors of the next item to come and to go, the number of
items, and whether the ring is closed. -/
structure Ring (α : Type) where
  slots : List (Option α)
  produce : Nat
  consume : Nat
  size : Nat
  closed : Bool
  deriving DecidableEq, Repr

namespace Ring

variable {α : Type}

/-- The open ring of empty slots, with both cursors at the first. -/
def empty (capacity : Nat) : Ring α := ⟨List.replicate capacity none, 0, 0, 0, false⟩

/-- The number of slots, which no change of the ring changes. -/
def capacity (r : Ring α) : Nat := r.slots.length

/-- The slot after another, with the first behind the last. -/
def next (r : Ring α) (i : Nat) : Nat := (i + 1) % r.capacity

/-- What is in a slot, or `none` if it is empty or there is no such slot. -/
def slot (r : Ring α) (i : Nat) : Option α := (r.slots[i]?).join

/-- What is in the slots from the cursor of the next to go on, as many as the ring counts. -/
def items (r : Ring α) : List (Option α) :=
  (List.range r.size).map fun k => r.slot ((r.consume + k) % r.capacity)

/-- The ring with an item more in the slot of `produce`, or `none` if it is closed. That there is a
vacant slot is for the caller to know. -/
def insert? (r : Ring α) (x : α) : Option (Ring α) :=
  if r.closed then none
  else some { r with
    slots := r.slots.set r.produce (some x), produce := r.next r.produce, size := r.size + 1 }

/-- What is in the slot of `consume`, and the ring without it, or `none` if the ring counts no
items. -/
def remove? (r : Ring α) : Option (Option α × Ring α) :=
  if r.size = 0 then none
  else some (r.slot r.consume, { r with
    slots := r.slots.set r.consume none, consume := r.next r.consume, size := r.size - 1 })

/-- An open ring takes every item by `insert?`, also one for which there is no vacant slot. -/
theorem insert?_of_open {r : Ring α} (h : r.closed = false) (x : α) :
    r.insert? x = some { r with
      slots := r.slots.set r.produce (some x), produce := r.next r.produce, size := r.size + 1 } := by
  rw [insert?, h]
  rfl

/-- A ring that counts items gives by `remove?` what is in the slot of the next to go. -/
theorem remove?_of_pos {r : Ring α} (h : 0 < r.size) :
    r.remove? = some (r.slot r.consume, { r with
      slots := r.slots.set r.consume none, consume := r.next r.consume, size := r.size - 1 }) :=
  if_neg (Nat.ne_of_gt h)

/-! ## Slots of a changed ring -/

/-- The slots of an `empty` ring are empty. -/
@[simp] theorem slot_empty (capacity i : Nat) : (empty capacity : Ring α).slot i = none := by
  simp only [slot, empty, List.getElem?_replicate]
  split <;> rfl

/-- An item that comes by `insert?` stands in the slot of the first cursor, and every other where it
stood. -/
theorem slot_of_insert? {r after : Ring α} {x y : α} {i : Nat} (h : r.insert? x = some after)
    (hy : after.slot i = some y) : i = r.produce ∧ y = x ∨ r.slot i = some y := by
  unfold insert? at h
  split at h
  · cases h
  · cases h
    simp only [slot, List.getElem?_set] at hy ⊢
    by_cases hi : r.produce = i
    · subst hi
      simp only [if_true] at hy
      split at hy
      · exact .inl ⟨rfl, (Option.some.inj hy).symm⟩
      · cases hy
    · rw [if_neg hi] at hy
      exact .inr hy

/-- What goes by `remove?` stood in the slot of the second cursor, and every other item stands where
it stood. -/
theorem slot_of_remove? {r after : Ring α} {found : Option α}
    (h : r.remove? = some (found, after)) :
    found = r.slot r.consume ∧
      ∀ i, after.slot i = if i = r.consume then none else r.slot i := by
  unfold remove? at h
  split at h
  · cases h
  · cases h
    refine ⟨rfl, fun i => ?_⟩
    simp only [slot, List.getElem?_set]
    by_cases hi : r.consume = i
    · subst hi
      by_cases hlt : r.consume < r.slots.length <;> simp [hlt]
    · simp [hi, Ne.symm hi]

end Ring

end KeyWatch
