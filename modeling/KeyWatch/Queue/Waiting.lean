import KeyWatch.Queue.Basic

/-!
# Queues with threads that wait

A queue beside which one producer may wait for a vacant slot (`Waiting`). Each operation runs until
nothing more can move, so what it gives does not depend on which thread runs first: a pop lets the
producer finish, and a close lets everybody finish. An operation that would wait gives nothing.
-/

namespace KeyWatch

/-- A queue and the item of the producer that waits for a vacant slot, if one does. -/
structure Waiting (α : Type) where
  queue : Queue α
  producer : Option α
  deriving DecidableEq, Repr

namespace Waiting

variable {α : Type}

/-- Pushes items one after another as long as none would wait (`Queue.push?`), and gives what became
of each. -/
def pushEach : List α → Queue α → List (Put α) × Queue α
  | [], q => ([], q)
  | x :: rest, q =>
    match q.push? x with
    | none => ([], q)
    | some (put, q) =>
      let (more, q) := pushEach rest q
      (put :: more, q)

/-- Pops some items one after another as long as none would wait (`Queue.pop?`), and gives them. -/
def popEach : Nat → Queue α → List (Option α) × Queue α
  | 0, q => ([], q)
  | n + 1, q =>
    match q.pop? with
    | none => ([], q)
    | some (item, q) =>
      let (more, q) := popEach n q
      (item :: more, q)

/-- Lets the producer finish, if its `Queue.push?` no longer waits. -/
def settle (w : Waiting α) : List (Put α) × Waiting α :=
  match w.producer with
  | none => ([], w)
  | some x =>
    match w.queue.push? x with
    | none => ([], w)
    | some (put, queue) => ([put], ⟨queue, none⟩)

/-- Pushes an item, or `none` where that would wait or another producer waits already. -/
def push? (w : Waiting α) (x : α) : Option (Put α × Waiting α) :=
  if w.producer.isSome then none
  else (w.queue.push? x).map fun (put, queue) => (put, { w with queue })

/-- Lets a producer start to wait with an item, or `none` where it would not have to wait or another
does. -/
def await? (w : Waiting α) (x : α) : Option (Waiting α) :=
  if w.queue.isFull && w.producer.isNone then some { w with producer := some x } else none

/-- Pops an item, and lets the producer that waits finish with the slot that became vacant
(`Waiting.settle`). -/
def pop? (w : Waiting α) : Option (Option α × List (Put α) × Waiting α) :=
  w.queue.pop?.map fun (item, queue) => (item, { w with queue }.settle)

/-- Closes the queue, and lets the producer that waits finish, whose item is handed back. -/
def close (w : Waiting α) : List (Put α) × Waiting α :=
  { w with queue := w.queue.close }.settle

/-- Lets one producer for each item wait, and closes the queue, so that all of them get their items
back; `none` where they would not wait. -/
def closeOnProducers? (w : Waiting α) (items : List α) : Option (List (Put α) × Waiting α) :=
  if w.queue.isFull && w.producer.isNone then
    let (puts, queue) := pushEach items w.queue.close
    some (puts, { w with queue })
  else none

/-- Lets some consumers wait, and closes the queue, so that all of them get nothing; `none` where
they would not wait. -/
def closeOnConsumers? (w : Waiting α) (count : Nat) : Option (List (Option α) × Waiting α) :=
  if w.queue.isStarved then
    let (items, queue) := popEach count w.queue.close
    some (items, { w with queue })
  else none

/-- Pushes items, each of which is popped before the next, as when a consumer waits for each. -/
def handOver : List α → Queue α → List (Put α) × List (Option α) × Queue α
  | [], q => ([], [], q)
  | x :: rest, q =>
    let (puts, q) := pushEach [x] q
    let (popped, q) := popEach 1 q
    let (morePuts, morePopped, q) := handOver rest q
    (puts ++ morePuts, popped ++ morePopped, q)

/-- Lets a consumer wait that takes as many items as are then pushed (`handOver`), or `none` where
it would not wait. -/
def transfer? (w : Waiting α) (items : List α) :
    Option (List (Put α) × List (Option α) × Waiting α) :=
  if w.queue.isStarved then
    let (puts, popped, queue) := handOver items w.queue
    some (puts, popped, { w with queue })
  else none

/-- What becomes of the producer that still waits when the queue is closed (`Waiting.close`). -/
def leftOver (w : Waiting α) : Option (Put α) := w.close.1.head?

end Waiting

end KeyWatch
