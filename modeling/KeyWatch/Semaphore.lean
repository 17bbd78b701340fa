/-!
# Counting semaphores

A semaphore counts free permits. Taking one waits until there is one (`acquire?` gives nothing
where it would wait), and giving one back adds one.
-/

namespace KeyWatch

/-- A counting semaphore, told by its number of free permits. Operation: `available_permits`. -/
structure Semaphore where
  permits : Nat
  deriving DecidableEq, Repr

namespace Semaphore

/-- The semaphore with a permit less, or `none` where there is no permit and the caller waits.
Operations: `acquire`, and `try_acquire`, which does not wait. -/
def acquire? (s : Semaphore) : Option Semaphore :=
  match s.permits with
  | 0 => none
  | n + 1 => some ⟨n⟩

/-- The semaphore with a permit more, which undoes `acquire?` (`release_of_acquire?`). Operation:
`release`. -/
def release (s : Semaphore) : Semaphore := ⟨s.permits + 1⟩

/-- To `release` the permit that `acquire?` took leads back to the semaphore of before. -/
theorem release_of_acquire? {s t : Semaphore} (h : s.acquire? = some t) : t.release = s := by
  obtain ⟨n⟩ := s
  cases n with
  | zero => cases h
  | succ n => cases h; rfl

/-- A permit that was given back by `release` can be taken again at once. -/
@[simp] theorem acquire?_release (s : Semaphore) : s.release.acquire? = some s := rfl

end Semaphore

end KeyWatch
