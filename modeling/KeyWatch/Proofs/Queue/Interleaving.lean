import Mathlib.Algebra.Order.BigOperators.Group.List
import Mathlib.Algebra.Order.Group.Nat
import Mathlib.Logic.Relation
import KeyWatch.Proofs.Queue.Backlog

/-!
# Calls of a queue that interleave

Any number of threads push, pop and close at the same time. A call goes from stage to stage
(`Stage`), one atomic step at a time (`Stage.step?`), and the steps of other calls may come before
its next. A step that needs a permit waits until there is one. A close wakes the producers and the
consumers in two steps of its own. What a thread does call by call is among these orders, since a
call may begin as late as it likes.

Between its steps a call has permits in hand, so the counters and the ring disagree. They agree once
what every call has in hand is counted (`Crowd.Sound.vacant`, `Crowd.Sound.filled`): no step makes
or loses a permit, but that which closes the ring makes one for either counter. From there on all
else follows (`Crowd.interleaved`): a push finds an empty slot and a pop a filled one, each item
goes to one pop, a pop that finds nothing finds the queue closed and empty, and after a close nobody
waits for ever.
-/

namespace KeyWatch

variable {α : Type}

/-- The item that a call pushes, or `none` for a call that is no push. -/
def QueueCall.pushed? : QueueCall α → Option α
  | push x => some x
  | _ => none

/-- Where a call of a queue stands between its atomic steps (`Stage.step?`). -/
inductive Stage (α : Type) where
  /-- a call that has not begun, or waits for its first permit -/
  | called (call : QueueCall α)
  /-- a push that has a permit and goes to the ring -/
  | storing (x : α)
  /-- a push that was at the ring and has a permit to give -/
  | leavingPush (x : α) (put : Put α)
  /-- a pop that has a permit and goes to the ring -/
  | taking
  /-- a pop that was at the ring and has a permit to give -/
  | leavingPop (found : Option (Option α))
  /-- a close that has closed the ring and wakes the producers next -/
  | wakingProducers
  /-- a close that has woken the producers and wakes the consumers next -/
  | wakingConsumers
  /-- a call that is over -/
  | returned (call : QueueCall α) (answer : QueueAnswer α)
  deriving DecidableEq, Repr

namespace Stage

/-- The next step of a call and what it makes of the queue, or `none` where the call has to wait for
a permit or is over. The steps are those of `Queue.push?`, `Queue.pop?` and `Queue.close`. -/
def step? (q : Queue α) : Stage α → Option (Stage α × Queue α)
  | called (.push x) => q.enterPush?.map fun q => (storing x, q)
  | storing x =>
    let (put, q) := q.storeItem x
    some (leavingPush x put, q)
  | leavingPush x put => some (returned (.push x) (.put put), q.leavePush put)
  | called .pop => q.enterPop?.map fun q => (taking, q)
  | taking =>
    let (found, q) := q.takeItem
    some (leavingPop found, q)
  | leavingPop found => some (returned .pop (.popped found.join), q.leavePop found)
  | called .close =>
    some (if q.isClosed then (returned .close .closed, q) else (wakingProducers, q.shut))
  | wakingProducers => some (wakingConsumers, { q with vacant := q.vacant.release })
  | wakingConsumers => some (returned .close .closed, { q with filled := q.filled.release })
  | returned _ _ => none

/-- The call that stands at a stage, which no step changes. -/
def call : Stage α → QueueCall α
  | called call | returned call _ => call
  | storing x | leavingPush x _ => .push x
  | taking | leavingPop _ => .pop
  | wakingProducers | wakingConsumers => .close

/-- Whether a call is between two of its steps, so that it has something in hand. -/
def isUnderWay : Stage α → Bool
  | called _ | returned _ _ => false
  | _ => true

/-- Whether a call is over and has its answer. -/
def isOver : Stage α → Bool
  | returned _ _ => true
  | _ => false

/-- The permits for vacant slots that a call has in hand: it took them from the counter, or has
still to give them. -/
def vacantInHand : Stage α → Nat
  | storing _ | leavingPush _ (.returned _) | leavingPop (some _) | wakingProducers => 1
  | _ => 0

/-- The permits for filled slots that a call has in hand: it took them from the counter, or has
still to give them. -/
def filledInHand : Stage α → Nat
  | leavingPush _ .done | taking | leavingPop none | wakingProducers | wakingConsumers => 1
  | _ => 0

/-- The item that a push has put into the ring, from the moment it did. -/
def stored? : Stage α → Option α
  | leavingPush x .done | returned (.push x) (.put .done) => some x
  | _ => none

/-- The item that a pop has got from the ring, from the moment it did. -/
def given? : Stage α → Option α
  | leavingPop found => found.join
  | returned _ (.popped found) => found
  | _ => none

/-- The steps that a call has before it at most, which decrease with each step
(`Move.stepsLeft_lt`). -/
def stepsLeft : Stage α → Nat
  | called _ => 3
  | storing _ | taking | wakingProducers => 2
  | leavingPush _ _ | leavingPop _ | wakingConsumers => 1
  | returned _ _ => 0

/-- Whether a pop has come from the ring without an item. -/
def isDry : Stage α → Bool
  | leavingPop found => found.join.isNone
  | returned _ (.popped found) => found.isNone
  | _ => false

/-- Whether a close has seen the ring closed, be it closed by itself or by another. -/
def hasClosed : Stage α → Bool
  | wakingProducers | wakingConsumers | returned _ .closed => true
  | _ => false

end Stage

/-- A queue and the calls that are made of it, each at its stage. -/
structure Crowd (α : Type) where
  queue : Queue α
  stages : List (Stage α)
  deriving DecidableEq, Repr

namespace Crowd

/-- A new queue and the calls that will be made of it, none of which has begun. -/
def start (capacity : Nat) (calls : List (QueueCall α)) : Crowd α :=
  ⟨.empty capacity, calls.map .called⟩

/-- The crowd after the next step of one of its calls (`Stage.step?`), or `none` where that has to
wait or is over. -/
def advance? (s : Crowd α) (i : Nat) : Option (Crowd α) := do
  let stage ← s.stages[i]?
  let (next, queue) ← stage.step? s.queue
  return ⟨queue, s.stages.set i next⟩

/-- A step of any of the calls (`advance?`), so who goes next is left open. -/
def Step (s t : Crowd α) : Prop := ∃ i, s.advance? i = some t

/-- Any number of steps, in any order of the calls (`Step`). -/
abbrev Reaches : Crowd α → Crowd α → Prop := Relation.ReflTransGen Step

/-- The steps of the calls in a given order, or `none` where one of them has to wait or is over. -/
def play? : List Nat → Crowd α → Option (Crowd α)
  | [], s => some s
  | i :: rest, s => (s.advance? i).bind (play? rest)

/-- The items that pushes have put into the ring (`Stage.stored?`). -/
def storedItems (s : Crowd α) : List α := s.stages.filterMap Stage.stored?

/-- The items that pops have got from the ring (`Stage.given?`). -/
def givenItems (s : Crowd α) : List α := s.stages.filterMap Stage.given?

end Crowd

/-- The permits that a close has added to either counter, read off the ring's flag. -/
def Queue.surplus (q : Queue α) : Nat := q.isClosed.toNat

/-! ## One step of a call -/

namespace Stage

/-- What a call has stored is what it pushes, so no push stores an item of another. -/
theorem pushed?_call {stage : Stage α} {x : α} (h : stage.stored? = some x) :
    stage.call.pushed? = some x := by
  unfold stored? at h
  split at h
  case h_1 => exact h
  case h_2 => exact h
  case h_3 => cases h

/-- What a step can do, case by case, with what the step relies on. Every invariant of a crowd is
shown over these cases. -/
inductive Move (q : Queue α) : Stage α → Stage α → Queue α → Prop
  /-- a push takes a permit for a vacant slot -/
  | enterPush {x : α} {n : Nat} (permit : q.vacant.permits = n + 1) :
      Move q (called (.push x)) (storing x) { q with vacant := ⟨n⟩ }
  /-- a push puts its item into the ring -/
  | store {x : α} {ring : Ring α} (isOpen : q.isClosed = false)
      (insert : q.ring.insert? x = some ring) :
      Move q (storing x) (leavingPush x .done) { q with ring }
  /-- a push finds the ring closed -/
  | refuse {x : α} (closed : q.isClosed = true) : Move q (storing x) (leavingPush x (.returned x)) q
  /-- a push announces a filled slot -/
  | announce {x : α} :
      Move q (leavingPush x .done) (returned (.push x) (.put .done))
        { q with filled := q.filled.release }
  /-- a push that found the ring closed gives its permit back -/
  | handBack {x y : α} :
      Move q (leavingPush x (.returned y)) (returned (.push x) (.put (.returned y)))
        { q with vacant := q.vacant.release }
  /-- a pop takes a permit for a filled slot -/
  | enterPop {n : Nat} (permit : q.filled.permits = n + 1) :
      Move q (called .pop) taking { q with filled := ⟨n⟩ }
  /-- a pop takes what is in the next slot -/
  | take {found : Option α} {ring : Ring α} (remove : q.ring.remove? = some (found, ring)) :
      Move q taking (leavingPop (some found)) { q with ring }
  /-- a pop finds the ring without items -/
  | miss (empty : q.size = 0) : Move q taking (leavingPop none) q
  /-- a pop announces a vacant slot -/
  | vacate {found : Option α} :
      Move q (leavingPop (some found)) (returned .pop (.popped found))
        { q with vacant := q.vacant.release }
  /-- a pop that found no items gives its permit back -/
  | passOn :
      Move q (leavingPop none) (returned .pop (.popped none)) { q with filled := q.filled.release }
  /-- a close closes the ring -/
  | shut (isOpen : q.isClosed = false) : Move q (called .close) wakingProducers q.shut
  /-- a close finds the ring closed -/
  | closeAgain (closed : q.isClosed = true) : Move q (called .close) (returned .close .closed) q
  /-- a close wakes the producers -/
  | wakeProducers : Move q wakingProducers wakingConsumers { q with vacant := q.vacant.release }
  /-- a close wakes the consumers -/
  | wakeConsumers :
      Move q wakingConsumers (returned .close .closed) { q with filled := q.filled.release }

variable {q q' : Queue α} {stage next : Stage α}

/-- A step of `step?` is one of the cases of `Move`. -/
theorem move_of_step? (h : stage.step? q = some (next, q')) : Move q stage next q' := by
  cases stage with
  | called call =>
    cases call with
    | push x =>
      obtain ⟨entered, henter, heq⟩ := Option.map_eq_some_iff.1 h
      obtain ⟨vacant, hacquire, rfl⟩ := Option.map_eq_some_iff.1 henter
      cases heq
      exact .enterPush (congrArg Semaphore.permits (Semaphore.release_of_acquire? hacquire)).symm
    | pop =>
      obtain ⟨entered, henter, heq⟩ := Option.map_eq_some_iff.1 h
      obtain ⟨filled, hacquire, rfl⟩ := Option.map_eq_some_iff.1 henter
      cases heq
      exact .enterPop (congrArg Semaphore.permits (Semaphore.release_of_acquire? hacquire)).symm
    | close =>
      simp only [step?] at h
      split at h
      case isTrue hclosed =>
        cases h
        exact .closeAgain hclosed
      case isFalse hopen =>
        cases h
        exact .shut (Bool.eq_false_iff.2 hopen)
  | storing x =>
    simp only [step?, Queue.storeItem] at h
    split at h
    case h_1 ring hinsert =>
      cases h
      refine .store ?_ hinsert
      unfold Ring.insert? at hinsert
      split at hinsert
      case isTrue => cases hinsert
      case isFalse hopen => exact Bool.eq_false_iff.2 hopen
    case h_2 hinsert =>
      cases h
      refine .refuse ?_
      unfold Ring.insert? at hinsert
      split at hinsert
      case isTrue hclosed => exact hclosed
      case isFalse => cases hinsert
  | leavingPush x put =>
    cases h
    cases put with
    | done => exact .announce
    | returned => exact .handBack
  | taking =>
    simp only [step?, Queue.takeItem] at h
    split at h
    case h_1 found ring hremove =>
      cases h
      exact .take hremove
    case h_2 hremove =>
      cases h
      refine .miss ?_
      unfold Ring.remove? at hremove
      split at hremove
      case isTrue hempty => exact hempty
      case isFalse => cases hremove
  | leavingPop found =>
    cases h
    cases found with
    | none => exact .passOn
    | some => exact .vacate
  | wakingProducers =>
    cases h
    exact .wakeProducers
  | wakingConsumers =>
    cases h
    exact .wakeConsumers
  | returned => cases h

end Stage

namespace Ring

variable {r after : Ring α}

/-- A ring that takes an item in counts one more, and keeps its flag and its slots. -/
theorem size_of_insert? {x : α} (h : r.insert? x = some after) :
    after.size = r.size + 1 ∧ after.closed = r.closed ∧ after.capacity = r.capacity := by
  unfold insert? at h
  split at h
  case isTrue => cases h
  case isFalse =>
    cases h
    exact ⟨rfl, rfl, List.length_set⟩

/-- A ring that gives an item out counts one less, and keeps its flag and its slots. -/
theorem size_of_remove? {found : Option α} (h : r.remove? = some (found, after)) :
    r.size = after.size + 1 ∧ after.closed = r.closed ∧ after.capacity = r.capacity := by
  unfold remove? at h
  split at h
  case isTrue => cases h
  case isFalse hpos =>
    cases h
    refine ⟨?_, rfl, List.length_set⟩
    show r.size = r.size - 1 + 1
    omega

end Ring

namespace Stage.Move

variable {q q' : Queue α} {stage next : Stage α}

/-- A step is of the call that makes it: a `Move` changes the stage and not the call. -/
theorem call_eq (h : Move q stage next q') : next.call = stage.call := by
  cases h <;> rfl

/-- A `Move` leaves the number of slots as it is. -/
theorem capacity_eq (h : Move q stage next q') : q'.capacity = q.capacity := by
  cases h with
  | store _ insert => exact (Ring.size_of_insert? insert).2.2
  | take remove => exact (Ring.size_of_remove? remove).2.2
  | _ => rfl

/-- A closed queue stays closed over every `Move`. -/
theorem isClosed (h : Move q stage next q') (hclosed : q.isClosed = true) :
    q'.isClosed = true := by
  cases h with
  | store _ insert => exact (Ring.size_of_insert? insert).2.1.trans hclosed
  | take remove => exact (Ring.size_of_remove? remove).2.1.trans hclosed
  | shut => rfl
  | _ => exact hclosed

/-- No step makes or loses a permit for a vacant slot, but the one that closes the ring makes one.
The permits are those of the counter and those in hand (`vacantInHand`). -/
theorem vacant (h : Move q stage next q') :
    q'.vacant.permits + next.vacantInHand + q'.size + q.surplus =
      q.vacant.permits + stage.vacantInHand + q.size + q'.surplus := by
  cases h with
  | enterPush permit =>
    rw [permit]
    rfl
  | store _ insert =>
    obtain ⟨hsize, hclosed, -⟩ := Ring.size_of_insert? insert
    simp only [Queue.size, Queue.surplus, Queue.isClosed, vacantInHand, hsize, hclosed]
    omega
  | take remove =>
    obtain ⟨hsize, hclosed, -⟩ := Ring.size_of_remove? remove
    simp only [Queue.size, Queue.surplus, Queue.isClosed, vacantInHand, hsize, hclosed]
    omega
  | shut isOpen =>
    rw [Queue.surplus, isOpen]
    exact Nat.add_right_comm q.vacant.permits 1 q.size
  | _ => rfl

/-- No step makes or loses a permit for a filled slot, but the one that closes the ring makes one.
The permits are those of the counter and those in hand (`filledInHand`). -/
theorem filled (h : Move q stage next q') :
    q'.filled.permits + next.filledInHand + q.size + q.surplus =
      q.filled.permits + stage.filledInHand + q'.size + q'.surplus := by
  cases h with
  | store _ insert =>
    obtain ⟨hsize, hclosed, -⟩ := Ring.size_of_insert? insert
    simp only [Queue.size, Queue.surplus, Queue.isClosed, filledInHand, hsize, hclosed]
    omega
  | enterPop permit =>
    rw [permit]
    rfl
  | take remove =>
    obtain ⟨hsize, hclosed, -⟩ := Ring.size_of_remove? remove
    simp only [Queue.size, Queue.surplus, Queue.isClosed, filledInHand, hsize, hclosed]
    omega
  | shut isOpen =>
    rw [Queue.surplus, isOpen]
    exact Nat.add_right_comm q.filled.permits 1 q.size
  | _ => rfl

/-- A call comes nearer to its end with each step. -/
theorem stepsLeft_lt (h : Move q stage next q') : next.stepsLeft < stage.stepsLeft := by
  cases h <;> simp [stepsLeft]

/-- A step leaves the ring as it is up to its flag, and what the call has stored and got, unless a
push stores its item or a pop takes what is in the next slot. -/
theorem ring (h : Move q stage next q') :
    (∃ x, stage = storing x ∧ next = leavingPush x .done ∧ q.isClosed = false ∧
      q.ring.insert? x = some q'.ring) ∨
    (∃ found, stage = taking ∧ next = leavingPop (some found) ∧
      q.ring.remove? = some (found, q'.ring)) ∨
    (q'.ring = { q.ring with closed := q'.isClosed } ∧ next.stored? = stage.stored? ∧
      next.given? = stage.given?) := by
  cases h with
  | store isOpen insert => exact .inl ⟨_, rfl, rfl, isOpen, insert⟩
  | take remove => exact .inr (.inl ⟨_, rfl, rfl, remove⟩)
  | _ => exact .inr (.inr ⟨rfl, rfl, rfl⟩)

/-- A pop comes away without an item only where the ring counts none, or has none where it counts
one. The second is ruled out for a crowd that is `Sound`. -/
theorem isDry (h : Move q stage next q') (hdry : next.isDry = true) :
    stage.isDry = true ∨ (stage = taking ∧ q.size = 0) ∨
      ∃ ring, q.ring.remove? = some (none, ring) := by
  cases h with
  | @take found _ remove =>
    cases found with
    | none => exact .inr (.inr ⟨_, remove⟩)
    | some => cases hdry
  | miss empty => exact .inr (.inl ⟨rfl, empty⟩)
  | vacate | passOn => exact .inl hdry
  | _ => cases hdry

/-- A closed queue without items stays closed and without items over every `Move`. -/
theorem drained (h : Move q stage next q') (hclosed : q.isClosed = true) (hempty : q.size = 0) :
    q'.isClosed = true ∧ q'.size = 0 := by
  refine ⟨h.isClosed hclosed, ?_⟩
  obtain ⟨x, -, -, hopen, -⟩ | ⟨found, -, -, hremove⟩ | ⟨hring, -⟩ := h.ring
  · exact absurd hclosed (Bool.eq_false_iff.1 hopen)
  · exact absurd ((Ring.size_of_remove? hremove).1.symm.trans hempty) (Nat.succ_ne_zero _)
  · exact (congrArg Ring.size hring).trans hempty

/-- A call sees the ring closed (`hasClosed`) only where it is. -/
theorem hasClosed (h : Move q stage next q') (hnext : next.hasClosed = true) :
    stage.hasClosed = true ∨ q'.isClosed = true := by
  cases h with
  | shut => exact .inr rfl
  | closeAgain closed => exact .inr closed
  | wakeProducers => exact .inl rfl
  | wakeConsumers => exact .inl rfl
  | _ => cases hnext

end Stage.Move

/-! ## One step of a crowd -/

namespace Crowd

variable {capacity : Nat} {calls : List (QueueCall α)} {s t : Crowd α}

/-- A step of a crowd is a `Move` of one of its calls, and the others stay at their stages. -/
theorem move_of_step (h : s.Step t) :
    ∃ before stage after next,
      s.stages = before ++ stage :: after ∧ t.stages = before ++ next :: after ∧
        stage.Move s.queue next t.queue := by
  obtain ⟨i, h⟩ := h
  simp only [advance?, Option.bind_eq_bind, Option.bind_eq_some_iff, Option.pure_def] at h
  obtain ⟨stage, hstage, ⟨next, queue⟩, hstep, heq⟩ := h
  cases heq
  obtain ⟨hi, rfl⟩ := List.getElem?_eq_some_iff.1 hstage
  refine ⟨s.stages.take i, _, s.stages.drop (i + 1), next, ?_, ?_, Stage.move_of_step? hstep⟩
  · rw [List.getElem_cons_drop, List.take_append_drop]
  · exact List.set_eq_take_append_cons_drop.trans (if_pos hi)

/-- A crowd whose counters and ring agree once what each call has in hand is counted, and whose
calls have stored, got and seen what the ring bears out. Every step keeps this (`Sound.step`). -/
structure Sound (capacity : Nat) (calls : List (QueueCall α)) (s : Crowd α) : Prop where
  calls : s.stages.map Stage.call = calls
  capacity : s.queue.capacity = capacity
  vacant : s.queue.vacant.permits + (s.stages.map Stage.vacantInHand).sum + s.queue.size =
    s.queue.capacity + s.queue.surplus
  filled : s.queue.filled.permits + (s.stages.map Stage.filledInHand).sum =
    s.queue.size + s.queue.surplus
  held : ∃ left, s.queue.ring.Carries left ∧ s.storedItems.Perm (s.givenItems ++ left)
  dry : ∀ stage ∈ s.stages, stage.isDry = true → s.queue.isClosed = true ∧ s.queue.size = 0
  closed : ∀ stage ∈ s.stages, stage.hasClosed = true → s.queue.isClosed = true

namespace Sound

/-- A crowd of which no call has begun is `Sound`. -/
theorem start (capacity : Nat) (calls : List (QueueCall α)) :
    (start capacity calls).Sound (max capacity 1) calls := by
  have hsum (f : Stage α → Nat) (hf : ∀ call, f (.called call) = 0) :
      ((calls.map Stage.called).map f).sum = 0 := by
    rw [List.map_map, List.sum_eq_zero_iff]
    intro n hn
    obtain ⟨call, -, rfl⟩ := List.mem_map.1 hn
    exact hf call
  have hnone (f : Stage α → Option α) (hf : ∀ call, f (.called call) = none) :
      (calls.map Stage.called).filterMap f = [] := by
    rw [List.filterMap_map, List.filterMap_eq_nil_iff]
    intro call _
    exact hf call
  refine ⟨?_, List.length_replicate, ?_, ?_, ⟨[], ?_, ?_⟩, ?_, ?_⟩
  · exact (List.map_map ..).trans (List.map_id _)
  · show max capacity 1 + ((calls.map Stage.called).map _).sum + 0 = (List.replicate _ _).length + 0
    rw [hsum _ fun _ => rfl, List.length_replicate]
  · show 0 + ((calls.map Stage.called).map _).sum = 0 + 0
    rw [hsum _ fun _ => rfl]
  · exact .empty (Nat.lt_of_lt_of_le Nat.one_pos (Nat.le_max_right ..))
  · show ((calls.map Stage.called).filterMap _).Perm ((calls.map Stage.called).filterMap _ ++ [])
    rw [hnone _ fun _ => rfl, hnone _ fun _ => rfl]
    exact .nil
  · intro stage hstage hdry
    obtain ⟨call, -, rfl⟩ := List.mem_map.1 hstage
    cases hdry
  · intro stage hstage hclosed
    obtain ⟨call, -, rfl⟩ := List.mem_map.1 hstage
    cases hclosed

/-- A push on its way to an open ring finds room there, since its permit stands for a vacant
slot. -/
theorem room (h : s.Sound capacity calls) {x : α} (hx : .storing x ∈ s.stages)
    (hopen : s.queue.isClosed = false) : s.queue.size < s.queue.capacity := by
  have hhand : 1 ≤ (s.stages.map Stage.vacantInHand).sum :=
    List.single_le_sum (fun _ _ => Nat.zero_le _) _ (List.mem_map_of_mem hx)
  have hsurplus : s.queue.surplus = 0 := congrArg Bool.toNat hopen
  have hvacant := h.vacant
  omega

/-- A pop on its way to a ring without items finds it closed, since its permit stands for a filled
slot or for the close. -/
theorem isClosed (h : s.Sound capacity calls) (htaking : .taking ∈ s.stages)
    (hempty : s.queue.size = 0) : s.queue.isClosed = true := by
  have hhand : 1 ≤ (s.stages.map Stage.filledInHand).sum :=
    List.single_le_sum (fun _ _ => Nat.zero_le _) _ (List.mem_map_of_mem htaking)
  have hfilled := h.filled
  cases hclosed : s.queue.isClosed with
  | true => rfl
  | false =>
    have hsurplus : s.queue.surplus = 0 := congrArg Bool.toNat hclosed
    omega

/-- What pushes have stored is what pops have got and what the ring still carries, also after a
step. -/
theorem held_step (h : s.Sound capacity calls) (hstep : s.Step t) :
    ∃ left, t.queue.ring.Carries left ∧ t.storedItems.Perm (t.givenItems ++ left) := by
  obtain ⟨before, stage, after, next, hs, ht, hmove⟩ := move_of_step hstep
  obtain ⟨left, hcarries, hperm⟩ := h.held
  have hmem : stage ∈ s.stages := hs ▸ List.mem_append_right _ List.mem_cons_self
  rw [storedItems, givenItems, hs, List.filterMap_append, List.filterMap_append] at hperm
  rw [storedItems, givenItems, ht, List.filterMap_append, List.filterMap_append]
  obtain ⟨x, rfl, rfl, hopen, hinsert⟩ | ⟨found, rfl, rfl, hremove⟩ | ⟨hring, hstored, hgiven⟩ :=
    hmove.ring
  · have hroom : left.length < s.queue.ring.capacity := hcarries.size ▸ h.room hmem hopen
    obtain ⟨ring, hafter, hmore, -⟩ := hcarries.insert hopen hroom x
    obtain rfl := Option.some.inj (hafter.symm.trans hinsert)
    refine ⟨left ++ [x], hmore, List.perm_middle.trans ?_⟩
    rw [← List.append_assoc]
    exact (hperm.cons x).trans (List.perm_append_singleton ..).symm
  · obtain ⟨x, rest, rfl, rfl, hrest⟩ := hcarries.of_remove? hremove
    refine ⟨rest, hrest, hperm.trans ?_⟩
    exact List.perm_middle.trans (List.perm_middle.append_right rest).symm
  · refine ⟨left, hring ▸ hcarries.shut _, ?_⟩
    rw [List.filterMap_cons, List.filterMap_cons, hstored, hgiven]
    rwa [List.filterMap_cons, List.filterMap_cons] at hperm

/-- Every step of a `Sound` crowd leads to a `Sound` crowd. -/
theorem step (h : s.Sound capacity calls) (hstep : s.Step t) : t.Sound capacity calls := by
  have hheld := h.held_step hstep
  obtain ⟨before, stage, after, next, hs, ht, hmove⟩ := move_of_step hstep
  have hmem : stage ∈ s.stages := hs ▸ List.mem_append_right _ List.mem_cons_self
  -- the other calls are where they were
  have hothers : ∀ other ∈ t.stages, other ∈ s.stages ∨ other = next := by
    intro other hother
    rw [ht, List.mem_append, List.mem_cons] at hother
    rw [hs, List.mem_append, List.mem_cons]
    tauto
  refine ⟨?_, hmove.capacity_eq.trans h.capacity, ?_, ?_, hheld, ?_, ?_⟩
  · have hcalls := h.calls
    rw [hs, List.map_append, List.map_cons] at hcalls
    rw [ht, List.map_append, List.map_cons, hmove.call_eq, hcalls]
  · have hvacant := h.vacant
    have hsame := hmove.vacant
    have hcapacity := hmove.capacity_eq
    rw [hs, List.map_append, List.map_cons, List.sum_append, List.sum_cons] at hvacant
    rw [ht, List.map_append, List.map_cons, List.sum_append, List.sum_cons]
    omega
  · have hfilled := h.filled
    have hsame := hmove.filled
    rw [hs, List.map_append, List.map_cons, List.sum_append, List.sum_cons] at hfilled
    rw [ht, List.map_append, List.map_cons, List.sum_append, List.sum_cons]
    omega
  · intro other hother hdry
    obtain hold | rfl := hothers other hother
    · obtain ⟨hclosed, hempty⟩ := h.dry other hold hdry
      exact hmove.drained hclosed hempty
    · rcases hmove.isDry hdry with hstage | ⟨rfl, hempty⟩ | ⟨ring, hremove⟩
      · obtain ⟨hclosed, hempty⟩ := h.dry stage hmem hstage
        exact hmove.drained hclosed hempty
      · exact hmove.drained (h.isClosed hmem hempty) hempty
      · obtain ⟨left, hcarries, -⟩ := h.held
        obtain ⟨x, rest, -, hfound, -⟩ := hcarries.of_remove? hremove
        cases hfound
  · intro other hother hclosed
    obtain hold | rfl := hothers other hother
    · exact hmove.isClosed (h.closed other hold hclosed)
    · rcases hmove.hasClosed hclosed with hstage | hqueue
      · exact hmove.isClosed (h.closed stage hmem hstage)
      · exact hqueue

/-- Every crowd that a `Sound` one reaches is `Sound`, by induction on the steps. -/
theorem reaches (h : s.Sound capacity calls) (hrun : s.Reaches t) : t.Sound capacity calls := by
  induction hrun with
  | refl => exact h
  | tail _ hstep ih => exact ih.step hstep

/-- After a close, and between the steps of all calls, there is a permit of either kind. -/
theorem permits (h : s.Sound capacity calls) (hclosed : s.queue.isClosed = true)
    (hbetween : ∀ stage ∈ s.stages, stage.isUnderWay = false) :
    1 ≤ s.queue.vacant.permits ∧ 1 ≤ s.queue.filled.permits := by
  have hsurplus : s.queue.surplus = 1 := congrArg Bool.toNat hclosed
  have hhands : ∀ stage ∈ s.stages, stage.vacantInHand = 0 ∧ stage.filledInHand = 0 := by
    intro stage hstage
    have hstill := hbetween stage hstage
    cases stage with
    | called | returned => exact ⟨rfl, rfl⟩
    | _ => cases hstill
  have hvacant := h.vacant
  have hfilled := h.filled
  rw [List.sum_eq_zero (List.forall_mem_map.2 fun stage hstage => (hhands stage hstage).1)]
    at hvacant
  rw [List.sum_eq_zero (List.forall_mem_map.2 fun stage hstage => (hhands stage hstage).2)]
    at hfilled
  obtain ⟨left, hcarries, -⟩ := h.held
  have hfits : s.queue.size ≤ s.queue.capacity := Nat.le_trans hcarries.size.le hcarries.fits
  omega

end Sound

/-! ## Runs of a crowd -/

/-- A call that is over stays over, with its answer, whatever step comes next. -/
theorem returned_mem_of_step (hstep : s.Step t) {call : QueueCall α} {answer : QueueAnswer α}
    (h : .returned call answer ∈ s.stages) : .returned call answer ∈ t.stages := by
  obtain ⟨before, stage, after, next, hs, ht, hmove⟩ := move_of_step hstep
  rw [hs, List.mem_append, List.mem_cons] at h
  rw [ht, List.mem_append, List.mem_cons]
  obtain hbefore | rfl | hafter := h
  · exact .inl hbefore
  · cases hmove
  · exact .inr (.inr hafter)

/-- A call that is over stays over, with its answer, whatever steps come next. -/
theorem returned_mem_of_reaches (hrun : s.Reaches t) {call : QueueCall α} {answer : QueueAnswer α}
    (h : .returned call answer ∈ s.stages) : .returned call answer ∈ t.stages := by
  induction hrun with
  | refl => exact h
  | tail _ hstep ih => exact returned_mem_of_step hstep ih

/-- A closed queue stays closed over every step of a crowd. -/
theorem isClosed_of_step (hstep : s.Step t) (hclosed : s.queue.isClosed = true) :
    t.queue.isClosed = true := by
  obtain ⟨_, _, _, _, -, -, hmove⟩ := move_of_step hstep
  exact hmove.isClosed hclosed

/-- A crowd has fewer steps before it after each, so no crowd goes on for ever. -/
theorem stepsLeft_of_step (hstep : s.Step t) :
    (t.stages.map Stage.stepsLeft).sum < (s.stages.map Stage.stepsLeft).sum := by
  obtain ⟨before, stage, after, next, hs, ht, hmove⟩ := move_of_step hstep
  rw [hs, ht, List.map_append, List.map_append, List.map_cons, List.map_cons, List.sum_append,
    List.sum_append, List.sum_cons, List.sum_cons]
  have hless := hmove.stepsLeft_lt
  omega

/-- A step that a call can make is a step of the crowd. -/
theorem step_of_isSome {stage : Stage α} (hstage : stage ∈ s.stages)
    (h : (stage.step? s.queue).isSome) : ∃ t, s.Step t := by
  obtain ⟨i, hi, rfl⟩ := List.getElem_of_mem hstage
  obtain ⟨⟨next, queue⟩, hnext⟩ := Option.isSome_iff_exists.1 h
  refine ⟨⟨queue, s.stages.set i next⟩, i, ?_⟩
  simp only [advance?, List.getElem?_eq_getElem hi, hnext, Option.bind_eq_bind, Option.bind_some,
    Option.pure_def]

end Crowd

namespace Stage

/-- A call that is between two of its steps can take the next: only the first step may have to
wait. -/
theorem isSome_step? (q : Queue α) {stage : Stage α} (h : stage.isUnderWay = true) :
    (stage.step? q).isSome = true := by
  cases stage with
  | called | returned => cases h
  | _ => rfl

/-- A call that has not begun can do so where there are permits of either kind. -/
theorem isSome_step?_called {q : Queue α} (hvacant : 1 ≤ q.vacant.permits)
    (hfilled : 1 ≤ q.filled.permits) (call : QueueCall α) :
    ((called call).step? q).isSome = true := by
  obtain ⟨ring, ⟨vacant⟩, ⟨filled⟩⟩ := q
  obtain ⟨n, rfl⟩ := Nat.exists_eq_add_of_le' hvacant
  obtain ⟨m, rfl⟩ := Nat.exists_eq_add_of_le' hfilled
  cases call <;> rfl

end Stage

namespace Crowd

variable {capacity : Nat} {calls : List (QueueCall α)} {s t : Crowd α}

/-- After a close, a call that is not over has a step to make or waits for one that has. -/
theorem Sound.exists_step (h : s.Sound capacity calls) (hclosed : s.queue.isClosed = true)
    {stage : Stage α} (hstage : stage ∈ s.stages) (hover : stage.isOver = false) :
    ∃ t, s.Step t := by
  cases hbusy : s.stages.any Stage.isUnderWay with
  | true =>
    obtain ⟨other, hother, hunder⟩ := List.any_eq_true.1 hbusy
    exact step_of_isSome hother (Stage.isSome_step? _ hunder)
  | false =>
    have hbetween : ∀ other ∈ s.stages, other.isUnderWay = false := by
      intro other hother
      exact Bool.eq_false_iff.2 (List.any_eq_false.1 hbusy other hother)
    obtain ⟨hvacant, hfilled⟩ := h.permits hclosed hbetween
    cases stage with
    | called call => exact step_of_isSome hstage (Stage.isSome_step?_called hvacant hfilled call)
    | returned => cases hover
    | _ => cases hbetween _ hstage

/-- After a close all calls can be led to their end, by steps of which there are only so many
(`stepsLeft_of_step`). -/
theorem Sound.exists_over (h : s.Sound capacity calls) (hclosed : s.queue.isClosed = true) :
    ∃ t, s.Reaches t ∧ ∀ stage ∈ t.stages, stage.isOver = true := by
  -- on the number of steps left: either all calls are over or one of them has a step to make
  induction hleft : (s.stages.map Stage.stepsLeft).sum using Nat.strong_induction_on
    generalizing s with
  | h n ih =>
    cases hall : s.stages.all Stage.isOver with
    | true => exact ⟨s, .refl, List.all_eq_true.1 hall⟩
    | false =>
      obtain ⟨stage, hstage, hover⟩ := List.all_eq_false.1 hall
      obtain ⟨t, hstep⟩ := h.exists_step hclosed hstage (Bool.eq_false_iff.2 hover)
      obtain ⟨u, hreaches, hu⟩ :=
        ih _ (hleft ▸ stepsLeft_of_step hstep) (h.step hstep) (isClosed_of_step hstep hclosed) rfl
      exact ⟨u, .head hstep hreaches, hu⟩

/-- A call that has the queue to itself goes as one that is made at once (`Queue.call?`), so the
runs of `refines_backlog` are among those of crowds. -/
theorem reaches_of_call? {q q' : Queue α} {call : QueueCall α} {answer : QueueAnswer α}
    (h : q.call? call = some (answer, q')) :
    (⟨q, [.called call]⟩ : Crowd α).Reaches ⟨q', [.returned call answer]⟩ := by
  have hstep {q q' : Queue α} {stage next : Stage α} (h : stage.step? q = some (next, q')) :
      (⟨q, [stage]⟩ : Crowd α).Step ⟨q', [next]⟩ := by
    refine ⟨0, ?_⟩
    simp [advance?, h]
  cases call with
  | push x =>
    obtain ⟨⟨put, after⟩, hpush, heq⟩ := Option.map_eq_some_iff.1 h
    cases heq
    obtain ⟨entered, henter, hrest⟩ := Option.bind_eq_some_iff.1 hpush
    cases hrest
    have hcalled : (Stage.called (.push x)).step? q = some (.storing x, entered) :=
      congrArg (Option.map _) henter
    exact .head (hstep hcalled) (.head (hstep rfl) (.single (hstep rfl)))
  | pop =>
    obtain ⟨⟨found, after⟩, hpop, heq⟩ := Option.map_eq_some_iff.1 h
    cases heq
    obtain ⟨entered, henter, hrest⟩ := Option.bind_eq_some_iff.1 hpop
    cases hrest
    have hcalled : (Stage.called .pop).step? q = some (.taking, entered) :=
      congrArg (Option.map _) henter
    exact .head (hstep hcalled) (.head (hstep rfl) (.single (hstep rfl)))
  | close =>
    cases h
    rw [Queue.close]
    split
    case isTrue hclosed =>
      have hcalled : (Stage.called .close).step? q = some (.returned .close .closed, q) := by
        rw [Stage.step?, if_pos hclosed]
      exact .single (hstep hcalled)
    case isFalse hopen =>
      have hcalled : (Stage.called .close).step? q = some (.wakingProducers, q.shut) := by
        rw [Stage.step?, if_neg hopen]
      exact .head (hstep hcalled) (.head (hstep rfl) (.single (hstep rfl)))

/-- A schedule that can be played (`play?`) is a run. -/
theorem reaches_of_play? {order : List Nat} (h : play? order s = some t) : s.Reaches t := by
  induction order generalizing s with
  | nil =>
    cases h
    exact .refl
  | cons i rest ih =>
    obtain ⟨next, hnext, hrest⟩ := Option.bind_eq_some_iff.1 h
    exact .head ⟨i, hnext⟩ (ih hrest)

/-- Pushes of different items store different items. -/
theorem Sound.nodup_storedItems (h : s.Sound capacity calls)
    (hcalls : (calls.filterMap QueueCall.pushed?).Nodup) : s.storedItems.Nodup := by
  rw [← h.calls, List.filterMap_map, List.Nodup, List.pairwise_filterMap] at hcalls
  rw [storedItems, List.Nodup, List.pairwise_filterMap]
  refine hcalls.imp ?_
  intro a b hab x hx y hy
  exact hab x (Stage.pushed?_call hx) y (Stage.pushed?_call hy)

/-- In every state that calls of a new queue, of any number and in any order of their steps, come to
(`Reaches`): a push that is on its way to the open ring finds an empty slot there, and a pop that is
on its way to a ring which counts items finds one in its slot. What the pushes have stored is what
the pops have got together with what the ring still holds, so pops get no item twice. A pop has
returned nothing only if the queue is closed and empty and stays so. Once a close has returned,
there is a permit of either kind whenever no call is between two of its steps, so that every call
which has not begun can; calls come to rest only if all are over, and they can always be led
there. -/
theorem interleaved (h : (start capacity calls).Reaches s) :
    (∀ x, .storing x ∈ s.stages → s.queue.isClosed = false →
      s.queue.ring.slots[s.queue.ring.produce]? = some none) ∧
    (.taking ∈ s.stages → 0 < s.queue.size →
      ∃ x, s.queue.ring.slots[s.queue.ring.consume]? = some (some x)) ∧
    (∃ left, s.queue.ring.Carries left ∧ s.storedItems.Perm (s.givenItems ++ left)) ∧
    ((calls.filterMap QueueCall.pushed?).Nodup → s.givenItems.Nodup) ∧
    (.returned .pop (.popped none) ∈ s.stages →
      ∀ t, s.Reaches t → t.queue.isClosed = true ∧ t.queue.size = 0) ∧
    (.returned .close .closed ∈ s.stages →
      ((∀ stage ∈ s.stages, stage.isUnderWay = false) →
        1 ≤ s.queue.vacant.permits ∧ 1 ≤ s.queue.filled.permits ∧
          ∀ call, ((Stage.called call).step? s.queue).isSome = true) ∧
      ((∀ t, ¬ s.Step t) → ∀ stage ∈ s.stages, stage.isOver = true) ∧
      ∃ t, s.Reaches t ∧ ∀ stage ∈ t.stages, stage.isOver = true) := by
  have hsound := (Sound.start capacity calls).reaches h
  obtain ⟨left, hcarries, hperm⟩ := hsound.held
  refine ⟨?_, ?_, ⟨left, hcarries, hperm⟩, ?_, ?_, ?_⟩
  · intro x hx hopen
    exact hcarries.vacant (hcarries.size ▸ hsound.room hx hopen)
  · intro _ hsize
    cases left with
    | nil => exact absurd hcarries.size (Nat.ne_of_gt hsize)
    | cons x rest => exact ⟨x, hcarries.first⟩
  · intro hcalls
    have hstored := hsound.nodup_storedItems hcalls
    exact (hperm.nodup_iff.1 hstored).sublist (List.sublist_append_left ..)
  · intro hpop t hrun
    exact (hsound.reaches hrun).dry _ (returned_mem_of_reaches hrun hpop) rfl
  · intro hclose
    have hclosed := hsound.closed _ hclose rfl
    refine ⟨?_, ?_, hsound.exists_over hclosed⟩
    · intro hbetween
      obtain ⟨hvacant, hfilled⟩ := hsound.permits hclosed hbetween
      exact ⟨hvacant, hfilled, Stage.isSome_step?_called hvacant hfilled⟩
    · intro hstuck stage hstage
      cases hover : stage.isOver with
      | true => rfl
      | false =>
        obtain ⟨t, hstep⟩ := hsound.exists_step hclosed hstage hover
        exact absurd hstep (hstuck t)

/-- A close comes between the steps of two producers and two consumers (`interleaved` applied to the
run). The second producer gets its item back, and the second consumer, let in by the close, takes
the item before the first. -/
theorem interleaved_secondComesFirst :
    ∃ s : Crowd Char,
      play? [0, 0, 0, 3, 2, 2, 1, 1, 1, 2, 4, 4, 3, 3, 4]
        (start 1 [.push 'a', .push 'b', .close, .pop, .pop]) = some s ∧
      s.stages = [.returned (.push 'a') (.put .done), .returned (.push 'b') (.put (.returned 'b')),
        .returned .close .closed, .returned .pop (.popped none),
        .returned .pop (.popped (some 'a'))] ∧
      s.givenItems.Nodup ∧ (∀ t, s.Reaches t → t.queue.isClosed = true ∧ t.queue.size = 0) ∧
      1 ≤ s.queue.vacant.permits ∧ 1 ≤ s.queue.filled.permits := by
  have hplay : play? [0, 0, 0, 3, 2, 2, 1, 1, 1, 2, 4, 4, 3, 3, 4]
      (start 1 [.push 'a', .push 'b', .close, .pop, .pop]) =
      some ⟨⟨⟨[none], 0, 0, 0, true⟩, ⟨2⟩, ⟨1⟩⟩, [.returned (.push 'a') (.put .done),
        .returned (.push 'b') (.put (.returned 'b')), .returned .close .closed,
        .returned .pop (.popped none), .returned .pop (.popped (some 'a'))]⟩ := by
    decide
  obtain ⟨-, -, -, hnodup, hpop, hclose⟩ := interleaved (reaches_of_play? hplay)
  obtain ⟨hvacant, hfilled, -⟩ := (hclose (by decide)).1 (by decide)
  exact ⟨_, hplay, rfl, hnodup (by decide), hpop (by decide), hvacant, hfilled⟩

end Crowd

end KeyWatch
