import KeyWatch.Proofs.Queue.Slots

/-!
# A queue is a bounded list

A queue is a row of slots with two cursors and two counters of permits. Who calls it one call at a
time sees a list of at most so many items with a flag that says whether more are taken (`Backlog`):
a call waits, answers and changes what is in the queue exactly as it does with the list, whatever
calls were made before and however often the cursors went round (`refines_backlog`).

What ties the two together is `Queue.Holds`. Counted from the second cursor on, the slots hold the
items and then nothing (`Queue.Holds.slots`), and each counter is off by the permit that a close has
added and that every call which finds the queue closed hands on (`Backlog.surplus`).
-/

namespace KeyWatch

variable {α : Type}

/-- What is in a queue: the items, the next to go first, how many there may be, and whether no more
are taken. A queue has to go as its backlog does (`Queue.Holds`). -/
structure Backlog (α : Type) where
  items : List α
  bound : Nat
  closed : Bool
  deriving DecidableEq, Repr

/-- A call of a queue, which `Queue.call?` makes of the queue and `Backlog.call?` of the list. -/
inductive QueueCall (α : Type) where
  | push (x : α)
  | pop
  | close
  deriving DecidableEq, Repr

/-- What a call of a queue gives (`QueueCall`). -/
inductive QueueAnswer (α : Type) where
  | put (put : Put α)
  | popped (found : Option α)
  | closed
  deriving DecidableEq, Repr

namespace Backlog

/-- The open backlog without items, with places for a number of them. -/
def empty (bound : Nat) : Backlog α := ⟨[], bound, false⟩

/-- Appends an item, or hands it back once the backlog is closed; gives nothing where all places are
taken. It is what `Queue.push?` should do. -/
def push? (b : Backlog α) (x : α) : Option (Put α × Backlog α) :=
  if b.closed then some (.returned x, b)
  else if b.items.length < b.bound then some (.done, { b with items := b.items ++ [x] })
  else none

/-- Takes the first item, or nothing once the backlog is closed and empty; gives nothing where there
is none to take. It is what `Queue.pop?` should do. -/
def pop? (b : Backlog α) : Option (Option α × Backlog α) :=
  match b.items with
  | x :: rest => some (some x, { b with items := rest })
  | [] => if b.closed then some (none, b) else none

/-- The backlog after a call, with what the call gives, or `none` where the call would have to
wait. -/
def call? (b : Backlog α) : QueueCall α → Option (QueueAnswer α × Backlog α)
  | .push x => (b.push? x).map fun (put, b) => (.put put, b)
  | .pop => b.pop?.map fun (found, b) => (.popped found, b)
  | .close => some (.closed, { b with closed := true })

/-- The permits that a close has added to either counter, and that every call which finds the queue
closed hands on. -/
def surplus (b : Backlog α) : Nat := if b.closed then 1 else 0

end Backlog

/-- The queue after a call, with what the call gives, or `none` where the call would have to
wait. -/
def Queue.call? (q : Queue α) : QueueCall α → Option (QueueAnswer α × Queue α)
  | .push x => (q.push? x).map fun (put, q) => (.put put, q)
  | .pop => q.pop?.map fun (found, q) => (.popped found, q)
  | .close => some (.closed, q.close)

/-- Calls made one after another, or `none` where one of them would have to wait. The machine is a
parameter, since a queue and a list are compared. -/
def runCalls {σ : Type} (call? : σ → QueueCall α → Option (QueueAnswer α × σ)) :
    List (QueueCall α) → σ → Option (List (QueueAnswer α) × σ)
  | [], s => some ([], s)
  | call :: rest, s =>
    match call? s call with
    | none => none
    | some (answer, s) => (runCalls call? rest s).map fun (more, s) => (answer :: more, s)

/-- The items that were taken in, in the order of the calls; an item that was handed back is none of
them. -/
def entered : List (QueueCall α) → List (QueueAnswer α) → List α
  | .push x :: calls, .put .done :: answers => x :: entered calls answers
  | _ :: calls, _ :: answers => entered calls answers
  | _, _ => []

/-- The items that were given out, in the order of the calls. -/
def given (answers : List (QueueAnswer α)) : List α :=
  answers.filterMap fun
    | .popped found => found
    | _ => none

/-- A queue that holds a backlog: from the second cursor on its slots hold the items and then
nothing, and its counters count the items and the free places, up to the `surplus` of a close. -/
structure Queue.Holds (q : Queue α) (b : Backlog α) : Prop where
  fits : b.items.length ≤ b.bound
  capacity : q.capacity = b.bound
  size : q.size = b.items.length
  closed : q.isClosed = b.closed
  consume : q.ring.consume < b.bound
  produce : q.ring.produce = (q.ring.consume + b.items.length) % b.bound
  slots : ∀ k < b.bound, q.ring.slot ((q.ring.consume + k) % b.bound) = b.items[k]?
  filled : q.filled.permits = b.items.length + b.surplus
  vacant : q.vacant.permits = b.bound - b.items.length + b.surplus

/-! ## Runs -/

/-- A row of calls that none of them keeps waiting begins with its first call, and the others go on
from there. -/
theorem cons_of_runCalls {σ : Type} {f : σ → QueueCall α → Option (QueueAnswer α × σ)}
    {call : QueueCall α} {rest : List (QueueCall α)} {s s' : σ} {answers : List (QueueAnswer α)}
    (h : runCalls f (call :: rest) s = some (answers, s')) :
    ∃ answer t more,
      f s call = some (answer, t) ∧ runCalls f rest t = some (more, s') ∧
        answers = answer :: more := by
  rw [runCalls] at h
  split at h
  case h_1 => cases h
  case h_2 answer t hcall =>
    obtain ⟨⟨more, last⟩, hrun, heq⟩ := Option.map_eq_some_iff.1 h
    cases heq
    exact ⟨answer, t, more, hcall, hrun, rfl⟩

/-- Two machines that go together call by call go together over every row of calls (`runCalls`). -/
theorem rel_runCalls {σ τ : Type} {f : σ → QueueCall α → Option (QueueAnswer α × σ)}
    {g : τ → QueueCall α → Option (QueueAnswer α × τ)} {r : σ → τ → Prop}
    (hstep : ∀ s t, r s t → ∀ call,
      Option.Rel (fun a b => a.1 = b.1 ∧ r a.2 b.2) (f s call) (g t call))
    (calls : List (QueueCall α)) {s : σ} {t : τ} (h : r s t) :
    Option.Rel (fun a b => a.1 = b.1 ∧ r a.2 b.2) (runCalls f calls s) (runCalls g calls t) := by
  induction calls generalizing s t with
  | nil => exact .some ⟨rfl, h⟩
  | cons call rest ih =>
    have hcall := hstep s t h call
    rw [runCalls, runCalls]
    generalize f s call = first at hcall ⊢
    generalize g t call = second at hcall ⊢
    cases hcall with
    | none => exact .none
    | @some a b hab =>
      obtain ⟨answer, s'⟩ := a
      obtain ⟨answer', t'⟩ := b
      obtain ⟨rfl, hr⟩ := hab
      have hrest := ih hr
      simp only
      generalize runCalls f rest s' = more at hrest ⊢
      generalize runCalls g rest t' = more' at hrest ⊢
      cases hrest with
      | none => exact .none
      | some hmore => exact .some ⟨congrArg (answer :: ·) hmore.1, hmore.2⟩

/-- Two machines that go together wait at the same calls. -/
theorem isNone_of_rel {β γ : Type} {r : β → γ → Prop} {a : Option β} {b : Option γ}
    (h : Option.Rel r a b) : a.isNone = b.isNone := by
  cases h <;> rfl

/-! ## The list -/

namespace Backlog

variable {b b' : Backlog α}

/-- A producer waits at a backlog if and only if it is open and all places are taken. -/
theorem push?_eq_none_iff {x : α} :
    b.push? x = none ↔ b.closed = false ∧ b.bound ≤ b.items.length := by
  unfold push?
  cases b.closed with
  | true => simp
  | false => simp

/-- A consumer waits at a backlog if and only if it is open and there are no items. -/
theorem pop?_eq_none_iff : b.pop? = none ↔ b.closed = false ∧ b.items = [] := by
  unfold pop?
  cases b.items with
  | nil => simp
  | cons x rest => simp

/-- What a call can do to a backlog: close it, append an item, hand an item back, take the first, or
give nothing. -/
theorem cases_of_call? {call : QueueCall α} {answer : QueueAnswer α}
    (h : b.call? call = some (answer, b')) :
    call = .close ∧ answer = .closed ∧ b' = { b with closed := true } ∨
      (∃ x, call = .push x ∧ b.closed = true ∧ answer = .put (.returned x) ∧ b' = b) ∨
      (∃ x, call = .push x ∧ b.items.length < b.bound ∧ answer = .put .done ∧
        b' = { b with items := b.items ++ [x] }) ∨
      (∃ x rest, call = .pop ∧ b.items = x :: rest ∧ answer = .popped (some x) ∧
        b' = { b with items := rest }) ∨
      call = .pop ∧ b.items = [] ∧ b.closed = true ∧ answer = .popped none ∧ b' = b := by
  cases call with
  | close =>
    cases h
    exact .inl ⟨rfl, rfl, rfl⟩
  | push x =>
    simp only [call?, push?] at h
    split at h
    case isTrue hclosed =>
      cases h
      exact .inr (.inl ⟨x, rfl, hclosed, rfl, rfl⟩)
    case isFalse =>
      split at h
      case isFalse => cases h
      case isTrue hroom =>
        cases h
        exact .inr (.inr (.inl ⟨x, rfl, hroom, rfl, rfl⟩))
  | pop =>
    simp only [call?, pop?] at h
    split at h
    case h_1 x rest hitems =>
      cases h
      exact .inr (.inr (.inr (.inl ⟨x, rest, rfl, hitems, rfl, rfl⟩)))
    case h_2 hitems =>
      split at h
      case isFalse => cases h
      case isTrue hclosed =>
        cases h
        exact .inr (.inr (.inr (.inr ⟨rfl, hitems, hclosed, rfl, rfl⟩)))

/-- No item is lost, doubled or overtaken: what was there, with what `entered`, is what was `given`
out, with what is left. -/
theorem entered_append {calls : List (QueueCall α)} {answers : List (QueueAnswer α)}
    (h : runCalls call? calls b = some (answers, b')) :
    b.items ++ entered calls answers = given answers ++ b'.items := by
  induction calls generalizing b answers with
  | nil =>
    cases h
    exact List.append_nil _
  | cons call rest ih =>
    obtain ⟨answer, next, more, hcall, hrun, rfl⟩ := cons_of_runCalls h
    have hmore := ih hrun
    obtain ⟨rfl, rfl, rfl⟩ | ⟨x, rfl, -, rfl, rfl⟩ | ⟨x, rfl, -, rfl, rfl⟩ |
      ⟨x, left, rfl, hitems, rfl, rfl⟩ | ⟨rfl, -, -, rfl, rfl⟩ := cases_of_call? hcall
    · exact hmore
    · exact hmore
    · rwa [List.append_assoc] at hmore
    · rw [hitems]
      exact congrArg (x :: ·) hmore
    · exact hmore

/-- The number of places of a backlog stays what it was, whatever calls are made. -/
theorem bound_runCalls {calls : List (QueueCall α)} {answers : List (QueueAnswer α)}
    (h : runCalls call? calls b = some (answers, b')) : b'.bound = b.bound := by
  induction calls generalizing b answers with
  | nil =>
    cases h
    rfl
  | cons call rest ih =>
    obtain ⟨answer, next, more, hcall, hrun, rfl⟩ := cons_of_runCalls h
    rw [ih hrun]
    obtain ⟨-, -, rfl⟩ | ⟨x, -, -, -, rfl⟩ | ⟨x, -, -, -, rfl⟩ | ⟨x, left, -, -, -, rfl⟩ |
      ⟨-, -, -, -, rfl⟩ := cases_of_call? hcall
    all_goals rfl

/-- A closed backlog gives out its items and then nothing for ever. -/
theorem runCalls_pop (hclosed : b.closed = true) (n : Nat) :
    ∃ after : Backlog α, runCalls call? (List.replicate n .pop) b =
      some (((b.items.map some ++ List.replicate n none).take n).map .popped, after) := by
  induction n generalizing b with
  | zero => exact ⟨b, rfl⟩
  | succ n ih =>
    obtain ⟨items, bound, closed⟩ := b
    obtain rfl : closed = true := hclosed
    cases items with
    | nil =>
      obtain ⟨after, hrun⟩ := ih (b := ⟨[], bound, true⟩) rfl
      refine ⟨after, ?_⟩
      simp only [List.replicate_succ, runCalls, call?, pop?, if_true, Option.map_some, hrun]
      rfl
    | cons x rest =>
      obtain ⟨after, hrun⟩ := ih (b := ⟨rest, bound, true⟩) rfl
      refine ⟨after, ?_⟩
      simp only [List.replicate_succ, runCalls, call?, pop?, Option.map_some, hrun]
      have htake : (rest.map some ++ none :: List.replicate n none).take n =
          (rest.map some ++ List.replicate n none).take n := by
        rw [← List.replicate_succ, List.replicate_succ', ← List.append_assoc]
        exact List.take_append_of_le_length (by simp)
      simp [htake]

end Backlog

/-! ## The queue -/

namespace Queue

variable {q : Queue α} {b : Backlog α}

namespace Holds

/-- The ring of a queue carries the items that the queue holds (`Ring.Carries`). -/
theorem carries (h : q.Holds b) : q.ring.Carries b.items := by
  have hcapacity : q.ring.capacity = b.bound := h.capacity
  refine ⟨?_, h.size, ?_, ?_, ?_⟩
  · rw [hcapacity]
    exact h.fits
  · rw [hcapacity]
    exact h.consume
  · rw [hcapacity]
    exact h.produce
  · rw [hcapacity]
    exact h.slots

/-- A queue holds a backlog if its ring carries the items and its flag and counters are as they
should be. -/
theorem of_carries (h : q.ring.Carries b.items) (hcapacity : q.ring.capacity = b.bound)
    (hclosed : q.isClosed = b.closed) (hfilled : q.filled.permits = b.items.length + b.surplus)
    (hvacant : q.vacant.permits = b.bound - b.items.length + b.surplus) : q.Holds b := by
  obtain ⟨hfits, hsize, hconsume, hproduce, hslots⟩ := h
  rw [hcapacity] at hfits hconsume hproduce hslots
  exact ⟨hfits, hcapacity, hsize, hclosed, hconsume, hproduce, hslots, hfilled, hvacant⟩

/-- A new queue holds the `empty` backlog of at least one place. -/
theorem empty (capacity : Nat) :
    (Queue.empty capacity : Queue α).Holds (.empty (max capacity 1)) := by
  have hpos : 0 < max capacity 1 := Nat.lt_of_lt_of_le Nat.one_pos (Nat.le_max_right _ _)
  exact of_carries (Ring.Carries.empty hpos) List.length_replicate rfl rfl rfl

/-- An open queue with a free place takes an item in by `push?`, behind the others. -/
theorem push {x : α} (h : q.Holds b) (hopen : b.closed = false)
    (hroom : b.items.length < b.bound) :
    ∃ after, q.push? x = some (.done, after) ∧ after.Holds { b with items := b.items ++ [x] } := by
  have hcapacity : q.ring.capacity = b.bound := h.capacity
  have hclosed : q.ring.closed = false := h.closed.trans hopen
  have hsurplus : b.surplus = 0 := by
    rw [Backlog.surplus, hopen]
    rfl
  have hsurplus' : Backlog.surplus { b with items := b.items ++ [x] } = 0 := hsurplus
  have hlength : (b.items ++ [x]).length = b.items.length + 1 := List.length_append
  have hfilled := h.filled
  have hvacant := h.vacant
  obtain ⟨n, hn⟩ : ∃ n, q.vacant.permits = n + 1 := ⟨b.bound - b.items.length - 1, by omega⟩
  obtain ⟨after, hinsert, hcarries, hsame, hopen'⟩ := h.carries.insert hclosed (hcapacity ▸ hroom) x
  refine ⟨_, push?_of_insert? hn hinsert,
    of_carries hcarries (hsame.trans hcapacity) (hopen'.trans h.closed) ?_ ?_⟩
  · show q.filled.permits + 1 = (b.items ++ [x]).length + _
    omega
  · show n = b.bound - (b.items ++ [x]).length + _
    omega

/-- A queue that holds items gives out the first of them by `pop?`. -/
theorem pop {x : α} {rest : List α} (h : q.Holds b) (hitems : b.items = x :: rest) :
    ∃ after, q.pop? = some (some x, after) ∧ after.Holds { b with items := rest } := by
  have hlength : b.items.length = rest.length + 1 := congrArg List.length hitems
  have hfits := h.fits
  have hfilled := h.filled
  have hvacant := h.vacant
  obtain ⟨n, hn⟩ : ∃ n, q.filled.permits = n + 1 := ⟨rest.length + b.surplus, by omega⟩
  obtain ⟨after, hremove, hcarries, hsame, hopen⟩ := (hitems ▸ h.carries).remove
  refine ⟨_, pop?_of_remove? hn hremove,
    of_carries hcarries (hsame.trans h.capacity) (hopen.trans h.closed) ?_ ?_⟩
  · show n = rest.length + b.surplus
    omega
  · show q.vacant.permits + 1 = b.bound - rest.length + b.surplus
    omega

/-- A queue that is closed by `close` holds what it held, and is closed; the permits that it gains
are the `surplus`. -/
theorem close (h : q.Holds b) : q.close.Holds { b with closed := true } := by
  by_cases hclosed : b.closed = true
  · have hq : q.close = q := if_pos (h.closed.trans hclosed)
    have hb : ({ b with closed := true } : Backlog α) = b := by
      rw [← hclosed]
    rw [hq, hb]
    exact h
  · have hsurplus : b.surplus = 0 := if_neg hclosed
    have hq : q.close = q.shut.wake := if_neg fun hc => hclosed (h.closed.symm.trans hc)
    rw [hq]
    have hfilled := h.filled
    have hvacant := h.vacant
    rw [hsurplus] at hfilled hvacant
    refine ⟨h.fits, h.capacity, h.size, rfl, h.consume, h.produce, h.slots, ?_, ?_⟩
    · exact congrArg (· + 1) hfilled
    · exact congrArg (· + 1) hvacant

/-- A closed queue hands every item back and is as it was, so what waits can go on one after
another. -/
theorem push?_closed (h : q.Holds b) (hclosed : q.isClosed = true) (x : α) :
    q.push? x = some (.returned x, q) := by
  have hsurplus : b.surplus = 1 := if_pos (h.closed.symm.trans hclosed)
  have hvacant := h.vacant
  rw [hsurplus] at hvacant
  exact push?_of_closed x hvacant hclosed

/-- A queue answers every call as the backlog does that it holds, and holds what is left of it;
where one waits, so does the other. -/
theorem call? (h : q.Holds b) (call : QueueCall α) :
    Option.Rel (fun done reference => done.1 = reference.1 ∧ done.2.Holds reference.2)
      (q.call? call) (b.call? call) := by
  have hfits := h.fits
  have hfilled := h.filled
  have hvacant := h.vacant
  cases call with
  | close => exact .some ⟨rfl, h.close⟩
  | push x =>
    rw [Queue.call?, Backlog.call?, Backlog.push?]
    by_cases hclosed : b.closed = true
    · rw [h.push?_closed (h.closed.trans hclosed), if_pos hclosed]
      exact .some ⟨rfl, h⟩
    · rw [if_neg hclosed]
      have hopen : b.closed = false := Bool.eq_false_iff.2 hclosed
      by_cases hroom : b.items.length < b.bound
      · obtain ⟨after, hpush, hafter⟩ := h.push (x := x) hopen hroom
        rw [hpush, if_pos hroom]
        exact .some ⟨rfl, hafter⟩
      · have hsurplus : b.surplus = 0 := if_neg hclosed
        rw [push?_of_no_permit x (by omega), if_neg hroom]
        exact .none
  | pop =>
    rw [Queue.call?, Backlog.call?, Backlog.pop?]
    cases hitems : b.items with
    | cons x rest =>
      obtain ⟨after, hpop, hafter⟩ := h.pop hitems
      rw [hpop]
      exact .some ⟨rfl, hafter⟩
    | nil =>
      have hlength : b.items.length = 0 := congrArg List.length hitems
      by_cases hclosed : b.closed = true
      · have hsurplus : b.surplus = 1 := if_pos hclosed
        have hone : q.filled.permits = 0 + 1 := by omega
        rw [pop?_of_empty hone (h.size.trans hlength), hclosed]
        exact .some ⟨rfl, h⟩
      · have hsurplus : b.surplus = 0 := if_neg hclosed
        rw [pop?_of_no_permit (by omega)]
        simp only [hclosed]
        exact .none

/-- A queue answers every row of calls as the backlog does that it holds (`rel_runCalls`). -/
theorem runCalls (h : q.Holds b) (calls : List (QueueCall α)) :
    Option.Rel (fun done reference => done.1 = reference.1 ∧ done.2.Holds reference.2)
      (runCalls Queue.call? calls q) (KeyWatch.runCalls Backlog.call? calls b) :=
  rel_runCalls (fun _ _ hr call => hr.call? call) calls h

/-- A producer would wait just where the queue is open and full (`isFull`). -/
theorem isNone_push? (h : q.Holds b) (x : α) : (q.push? x).isNone = q.isFull := by
  have hcall := isNone_of_rel (h.call? (.push x))
  rw [Queue.call?, Backlog.call?, Option.isNone_map, Option.isNone_map] at hcall
  rw [hcall, Bool.eq_iff_iff, Option.isNone_iff_eq_none, Backlog.push?_eq_none_iff, isFull,
    h.closed, h.size, h.capacity, Bool.and_eq_true, Bool.not_eq_true', beq_iff_eq]
  have hfits := h.fits
  constructor
  · rintro ⟨hopen, hfull⟩
    exact ⟨hopen, by omega⟩
  · rintro ⟨hopen, hfull⟩
    exact ⟨hopen, by omega⟩

/-- A consumer would wait just where the queue is open and empty (`isStarved`). -/
theorem isNone_pop? (h : q.Holds b) : q.pop?.isNone = q.isStarved := by
  have hcall := isNone_of_rel (h.call? .pop)
  rw [Queue.call?, Backlog.call?, Option.isNone_map, Option.isNone_map] at hcall
  rw [hcall, Bool.eq_iff_iff, Option.isNone_iff_eq_none, Backlog.pop?_eq_none_iff, isStarved,
    h.closed, h.size, Bool.and_eq_true, Bool.not_eq_true', beq_iff_eq, List.length_eq_zero_iff]

/-- A closed queue gives out its items and then nothing for ever, as its backlog does. -/
theorem runCalls_pop (h : q.Holds b) (hclosed : q.isClosed = true) (n : Nat) :
    ∃ after, KeyWatch.runCalls Queue.call? (List.replicate n .pop) q =
      some (((b.items.map some ++ List.replicate n none).take n).map .popped, after) := by
  have hrun := h.runCalls (List.replicate n .pop)
  obtain ⟨left, hleft⟩ := Backlog.runCalls_pop (h.closed.symm.trans hclosed) n
  rw [hleft] at hrun
  cases hq : KeyWatch.runCalls Queue.call? (List.replicate n .pop) q with
  | none =>
    rw [hq] at hrun
    cases hrun
  | some done =>
    obtain ⟨answers, after⟩ := done
    rw [hq] at hrun
    cases hrun with
    | some hsame => exact ⟨after, congrArg (fun answers => some (answers, after)) hsame.1⟩

end Holds

/-- Over any row of calls from the new queue of any capacity, made one at a time, a queue answers as
a list with at least one place does (`Backlog`), and waits where it does. It then holds what the
list holds (`Queue.Holds`): what went in has come out or is still there, in the order in which it
came, slots that hold no item are empty, and the counters count the items and the free places, with
one more each after a close. So a producer waits just at an open full queue and a consumer at an
open empty one. A closed queue hands back what is pushed, and is as it was; it gives out the items
that are left and then nothing for ever. -/
theorem refines_backlog (capacity : Nat) (calls : List (QueueCall α)) :
    Option.Rel
      (fun done reference =>
        done.1 = reference.1 ∧ done.2.Holds reference.2 ∧ reference.2.bound = max capacity 1 ∧
          entered calls done.1 = given done.1 ++ reference.2.items ∧
          (∀ x, (done.2.push? x).isNone = done.2.isFull) ∧
          done.2.pop?.isNone = done.2.isStarved ∧
          (done.2.isClosed = true →
            (∀ x, done.2.push? x = some (.returned x, done.2)) ∧
              ∀ n, ∃ after, runCalls Queue.call? (List.replicate n .pop) done.2 =
                some (((reference.2.items.map some ++ List.replicate n none).take n).map .popped,
                  after)))
      (runCalls Queue.call? calls (.empty capacity))
      (runCalls Backlog.call? calls (.empty (max capacity 1))) := by
  have hrun := (Holds.empty (α := α) capacity).runCalls calls
  generalize runCalls Queue.call? calls (.empty capacity) = run at hrun ⊢
  cases href : runCalls Backlog.call? calls (.empty (max capacity 1)) with
  | none =>
    rw [href] at hrun
    cases hrun
    exact .none
  | some reference =>
    obtain ⟨answers, b⟩ := reference
    have hbound := Backlog.bound_runCalls href
    have hentered := Backlog.entered_append href
    rw [href] at hrun
    cases hrun with
    | @some done _ hsame =>
      obtain ⟨answered, q⟩ := done
      obtain ⟨rfl, hholds⟩ := hsame
      exact .some ⟨rfl, hholds, hbound, hentered, hholds.isNone_push?, hholds.isNone_pop?,
        fun hclosed => ⟨hholds.push?_closed hclosed, hholds.runCalls_pop hclosed⟩⟩

-- three items through two slots, then a close
example : (runCalls Queue.call? [.push 'a', .push 'b', .pop, .push 'c', .close, .push 'd', .pop,
    .pop, .pop] (.empty 2)).map Prod.fst = some [.put .done, .put .done, .popped (some 'a'),
      .put .done, .closed, .put (.returned 'd'), .popped (some 'b'), .popped (some 'c'),
      .popped none] := by
  decide

end Queue

end KeyWatch
