import KeyWatch.Queue.Ring
import KeyWatch.Semaphore

/-!
# Bounded queues

A queue hands items from producers to consumers through a ring. Two semaphores keep it in bounds:
one counts the vacant slots and one the filled. To push is three steps, of which each is atomic but
others' steps may come between them: take a vacant slot, put the item into the ring, and announce a
filled slot. To pop is three steps the other way round.

A close adds a permit to both semaphores, so that whoever waits goes on; what finds the ring closed,
or closed and empty, gives its permit back to the next (`Queue.leavePush`, `Queue.leavePop`).
-/

namespace KeyWatch

/-- A ring and the semaphores of its vacant and filled slots, between which the steps of a push and
a pop go. -/
structure Queue (α : Type) where
  ring : Ring α
  vacant : Semaphore
  filled : Semaphore
  deriving DecidableEq, Repr

/-- What became of an item that was pushed (`Queue.push?`): it is in the queue, or it is handed back
because the queue is closed. -/
inductive Put (α : Type) where
  | done
  | returned (item : α)
  deriving DecidableEq, Repr

namespace Queue

variable {α : Type}

/-- The open queue without items, of at least one slot. Operation: `new` of a queue. -/
def empty (capacity : Nat) : Queue α :=
  let capacity := max capacity 1
  ⟨.empty capacity, ⟨capacity⟩, ⟨0⟩⟩

/-- The number of slots. Operation: `capacity`. -/
def capacity (q : Queue α) : Nat := q.ring.capacity

/-- The number of items, as the ring counts them. Operation: `len`. -/
def size (q : Queue α) : Nat := q.ring.size

/-- Whether there are no items. Operation: `is_empty`. -/
def isEmpty (q : Queue α) : Bool := q.size == 0

/-- Whether the queue is closed, and so takes no more items. Operation: `is_closed`. -/
def isClosed (q : Queue α) : Bool := q.ring.closed

/-- Whether a producer would wait: the queue is open and every slot is taken. -/
def isFull (q : Queue α) : Bool := !q.isClosed && q.size == q.capacity

/-- Whether a consumer would wait: the queue is open and no slot is filled. -/
def isStarved (q : Queue α) : Bool := !q.isClosed && q.size == 0

/-- The first step of a push: a permit for a vacant slot is taken, or `none` where there is no
permit and the producer waits. -/
def enterPush? (q : Queue α) : Option (Queue α) :=
  q.vacant.acquire?.map fun vacant => { q with vacant }

/-- The second step of a push: the item is put into the ring (`Ring.insert?`), unless the ring is
closed. -/
def storeItem (q : Queue α) (x : α) : Put α × Queue α :=
  match q.ring.insert? x with
  | some ring => (.done, { q with ring })
  | none => (.returned x, q)

/-- The last step of a push: a filled slot is announced, or else the permit is given back, which
lets the next producer find the ring closed. -/
def leavePush (q : Queue α) : Put α → Queue α
  | .done => { q with filled := q.filled.release }
  | .returned _ => { q with vacant := q.vacant.release }

/-- Pushes an item by its three steps, or `none` where that would wait. A closed queue hands the
item back. Operation: `push`. -/
def push? (q : Queue α) (x : α) : Option (Put α × Queue α) := do
  let q ← q.enterPush?
  let (put, q) := q.storeItem x
  return (put, q.leavePush put)

/-- The first step of a pop: a permit for a filled slot is taken, or `none` where there is no permit
and the consumer waits. -/
def enterPop? (q : Queue α) : Option (Queue α) :=
  q.filled.acquire?.map fun filled => { q with filled }

/-- The second step of a pop: what is in the next slot is taken from the ring (`Ring.remove?`),
unless the ring counts no items. -/
def takeItem (q : Queue α) : Option (Option α) × Queue α :=
  match q.ring.remove? with
  | some (found, ring) => (some found, { q with ring })
  | none => (none, q)

/-- The last step of a pop: a vacant slot is announced, or else the permit is given back, which lets
the next consumer find the ring closed and empty. -/
def leavePop (q : Queue α) : Option (Option α) → Queue α
  | some _ => { q with vacant := q.vacant.release }
  | none => { q with filled := q.filled.release }

/-- Pops the oldest item by the three steps, or nothing once the queue is closed and empty; `none`
where that would wait. Operation: `pop`. -/
def pop? (q : Queue α) : Option (Option α × Queue α) := do
  let q ← q.enterPop?
  let (found, q) := q.takeItem
  return (found.join, q.leavePop found)

/-- The first step of a close: the ring takes no more items. -/
def shut (q : Queue α) : Queue α := { q with ring := { q.ring with closed := true } }

/-- The last step of a close: a permit more on either side lets whoever waits go on, and each gives
it to the next (`Queue.leavePush`, `Queue.leavePop`). -/
def wake (q : Queue α) : Queue α :=
  { q with vacant := q.vacant.release, filled := q.filled.release }

/-- Closes the queue (`Queue.shut`, `Queue.wake`); to close it again changes nothing. Operation:
`close`. -/
def close (q : Queue α) : Queue α := if q.isClosed then q else q.shut.wake

/-! ## Whole pushes and pops -/

/-- Without a permit for a vacant slot a `push?` would wait. -/
theorem push?_of_no_permit {q : Queue α} (x : α) (h : q.vacant.permits = 0) :
    q.push? x = none := by
  simp [push?, enterPush?, Semaphore.acquire?, h]

/-- A closed queue that lets a producer in hands its item back and is as it was. -/
theorem push?_of_closed {q : Queue α} {n : Nat} (x : α) (h : q.vacant.permits = n + 1)
    (hclosed : q.ring.closed = true) : q.push? x = some (.returned x, q) := by
  obtain ⟨ring, ⟨vacant⟩, filled⟩ := q
  obtain rfl : vacant = n + 1 := h
  have hinsert : ring.insert? x = none := if_pos hclosed
  simp [push?, enterPush?, Semaphore.acquire?, storeItem, hinsert, leavePush, Semaphore.release]

/-- A `push?` that finds a permit and an open ring leaves the item in the ring, a permit less for
vacant slots and one more for filled ones. -/
theorem push?_of_insert? {q : Queue α} {n : Nat} {x : α} {ring : Ring α}
    (h : q.vacant.permits = n + 1) (hinsert : q.ring.insert? x = some ring) :
    q.push? x = some (.done, ⟨ring, ⟨n⟩, q.filled.release⟩) := by
  simp [push?, enterPush?, Semaphore.acquire?, storeItem, h, hinsert, leavePush]

/-- Without a permit for a filled slot a `pop?` would wait. -/
theorem pop?_of_no_permit {q : Queue α} (h : q.filled.permits = 0) : q.pop? = none := by
  simp [pop?, enterPop?, Semaphore.acquire?, h]

/-- A queue without items that lets a consumer in gives it nothing and is as it was. -/
theorem pop?_of_empty {q : Queue α} {n : Nat} (h : q.filled.permits = n + 1)
    (hempty : q.ring.size = 0) : q.pop? = some (none, q) := by
  obtain ⟨ring, vacant, ⟨filled⟩⟩ := q
  obtain rfl : filled = n + 1 := h
  have hremove : ring.remove? = none := if_pos hempty
  simp [pop?, enterPop?, Semaphore.acquire?, takeItem, hremove, leavePop, Semaphore.release]

/-- A `pop?` that finds a permit and an item takes the item from the ring, with a permit more for
vacant slots and one less for filled ones. -/
theorem pop?_of_remove? {q : Queue α} {n : Nat} {found : Option α} {ring : Ring α}
    (h : q.filled.permits = n + 1) (hremove : q.ring.remove? = some (found, ring)) :
    q.pop? = some (found, ⟨ring, q.vacant.release, ⟨n⟩⟩) := by
  simp [pop?, enterPop?, Semaphore.acquire?, takeItem, h, hremove, leavePop]

/-! ## Slots of a changed queue -/

/-- Behind a `push?` stands in the slots what stood there, and the item where one was to come. -/
theorem slot_of_push? {q after : Queue α} {x y : α} {put : Put α} {i : Nat}
    (h : q.push? x = some (put, after)) (hy : after.ring.slot i = some y) :
    put = .done ∧ i = q.ring.produce ∧ y = x ∨ q.ring.slot i = some y := by
  simp only [push?, enterPush?, Option.bind_eq_bind, Option.bind_eq_some_iff,
    Option.map_eq_some_iff] at h
  obtain ⟨_, ⟨vacant, -, rfl⟩, h⟩ := h
  simp only [storeItem] at h
  cases hinsert : q.ring.insert? x with
  | none =>
    simp only [hinsert] at h
    cases h
    exact .inr hy
  | some ring =>
    simp only [hinsert] at h
    cases h
    exact (Ring.slot_of_insert? hinsert hy).imp_left fun hnew => ⟨rfl, hnew⟩

/-- What is popped stood in the slot of the next to go, and what stands in the slots behind a `pop?`
stood there and in no such slot. -/
theorem slot_of_pop? {q after : Queue α} {found : Option α} (h : q.pop? = some (found, after)) :
    (∀ x, found = some x → q.ring.slot q.ring.consume = some x) ∧
      ∀ i y, after.ring.slot i = some y →
        q.ring.slot i = some y ∧ (found.isSome = true → i ≠ q.ring.consume) := by
  simp only [pop?, enterPop?, Option.bind_eq_bind, Option.bind_eq_some_iff,
    Option.map_eq_some_iff] at h
  obtain ⟨_, ⟨filled, -, rfl⟩, h⟩ := h
  simp only [takeItem] at h
  cases hremove : q.ring.remove? with
  | none =>
    simp only [hremove] at h
    cases h
    exact ⟨nofun, fun i y hy => ⟨hy, nofun⟩⟩
  | some removed =>
    obtain ⟨item, ring⟩ := removed
    simp only [hremove] at h
    cases h
    obtain ⟨hitem, hslots⟩ := Ring.slot_of_remove? hremove
    refine ⟨fun x hx => hitem ▸ hx, fun i y hy => ?_⟩
    replace hy : ring.slot i = some y := hy
    rw [hslots] at hy
    split at hy
    case isTrue => cases hy
    case isFalse hi => exact ⟨hy, fun _ => hi⟩

/-- To `close` a queue leaves every slot as it is. -/
@[simp] theorem slot_close (q : Queue α) (i : Nat) : q.close.ring.slot i = q.ring.slot i := by
  unfold close
  split <;> rfl

end Queue

end KeyWatch
