import KeyWatch.Backup.Snapshot
import KeyWatch.Semaphore

/-!
# Backups in flight

A backup is a copy of the entries, written to its file on the side while the table goes on. The
number of backups that are being written is bounded: one that is to start while as many are running
waits for one to complete. Starting a backup forgets those that are complete
(`BackupLimiter.start?`), and waiting for all gives the first failure among those not forgotten
(`BackupLimiter.waitAll`).

When a backup completes is not for the limiter to say: `BackupLimiter.complete` is a step of its
own.
-/

namespace KeyWatch

/-- A backup that was started: it is still to be written, with the entries as they were when it
started, or it is complete, with its failure if it failed. -/
inductive Backup where
  | running (target : Path) (entries : List Entry)
  | complete (failure : Option Error)
  deriving DecidableEq, Repr

/-- The failure of a backup that is complete and failed, and `none` for any other. -/
def Backup.failure? : Backup → Option Error
  | running _ _ => none
  | complete failure => failure

/-- Whether a backup is still to be written, and so holds a slot of the limiter. -/
def Backup.isRunning : Backup → Bool
  | running _ _ => true
  | complete _ => false

/-- The free slots, and the backups that were started and are not forgotten, in order. -/
structure BackupLimiter where
  slots : Semaphore
  inFlight : List Backup
  deriving DecidableEq, Repr

namespace BackupLimiter

/-- The limiter of at most some backups at a time, and of one at least. Operation: `new` of the
limiter. -/
def ofMax (maxBackups : Nat) : BackupLimiter := ⟨⟨max maxBackups 1⟩, []⟩

/-- The number of free slots. Operation: `available`. -/
def available (l : BackupLimiter) : Nat := l.slots.permits

/-- The number of backups that are not forgotten, which counts those that are complete until another
starts. Operation: `pending`. -/
def pending (l : BackupLimiter) : Nat := l.inFlight.length

/-- Starts a backup if a slot is free, and forgets those that are complete, with their failures.
Where it would wait for a slot it gives `none`. Operation: `start`. -/
def start? (l : BackupLimiter) (target : Path) (entries : List Entry) : Option BackupLimiter :=
  l.slots.acquire?.map fun slots =>
    ⟨slots, l.inFlight.filter Backup.isRunning ++ [.running target entries]⟩

/-- Completes the backup at a place in the row, unless it is complete: its snapshot is written
(`writeSnapshot`), its failure kept, and its slot freed. -/
def complete (l : BackupLimiter) (i : Nat) (fs : FileSystem) : BackupLimiter × FileSystem :=
  match l.inFlight[i]? with
  | some (.running target entries) =>
    let (failure, fs) := writeSnapshot target entries fs
    (⟨l.slots.release, l.inFlight.set i (.complete failure)⟩, fs)
  | _ => (l, fs)

/-- Starts a backup (`BackupLimiter.start?`); if no slot is free, the earliest that is running
completes first. -/
def start (l : BackupLimiter) (target : Path) (entries : List Entry) (fs : FileSystem) :
    BackupLimiter × FileSystem :=
  match l.start? target entries with
  | some l => (l, fs)
  | none =>
    let (l, fs) := l.complete (l.inFlight.findIdx Backup.isRunning) fs
    ((l.start? target entries).getD l, fs)

/-- Completes the backups at some places in the row, one after another
(`BackupLimiter.complete`). -/
def completeEach : List Nat → BackupLimiter → FileSystem → BackupLimiter × FileSystem
  | [], l, fs => (l, fs)
  | i :: rest, l, fs =>
    let (l, fs) := l.complete i fs
    completeEach rest l fs

/-- Waits for all backups, forgets them, and gives the first failure among those that were not
forgotten before. Operation: `wait_all`. -/
def waitAll (l : BackupLimiter) (fs : FileSystem) : Option Error × BackupLimiter × FileSystem :=
  let (l, fs) := completeEach (List.range l.inFlight.length) l fs
  (l.inFlight.findSome? Backup.failure?, { l with inFlight := [] }, fs)

/-! ## Who is still running -/

variable {l : BackupLimiter} {fs : FileSystem}

/-- To `complete` a backup that is running writes its snapshot, keeps the failure and frees a
slot. -/
theorem complete_of_running {i : Nat} {target : Path} {entries : List Entry}
    (h : l.inFlight[i]? = some (.running target entries)) (fs : FileSystem) :
    l.complete i fs =
      (⟨l.slots.release, l.inFlight.set i (.complete (writeSnapshot target entries fs).1)⟩,
        (writeSnapshot target entries fs).2) := by
  rw [complete, h]

/-- To `complete` a backup that is not running, or is not there, changes nothing. -/
theorem complete_of_idle {i : Nat} (h : ∀ b ∈ l.inFlight[i]?, b.isRunning = false)
    (fs : FileSystem) : l.complete i fs = (l, fs) := by
  unfold complete
  split
  case h_1 target entries hi => cases h _ hi
  case h_2 => rfl

/-- To `complete` a backup forgets none, so the places in the row stay. -/
@[simp] theorem length_complete (l : BackupLimiter) (i : Nat) (fs : FileSystem) :
    (l.complete i fs).1.inFlight.length = l.inFlight.length := by
  unfold complete
  split
  · exact List.length_set
  · rfl

/-- Behind `complete` the backup of that place is not running, and none runs that did not run
before. -/
theorem isRunning_complete {i j : Nat}
    (h : j = i ∨ ∀ b ∈ l.inFlight[j]?, b.isRunning = false) :
    ∀ b ∈ (l.complete i fs).1.inFlight[j]?, b.isRunning = false := by
  intro b hb
  unfold complete at hb
  split at hb
  case h_1 hi =>
    by_cases hij : i = j
    · rw [← hij, List.getElem?_set_self', hi] at hb
      cases hb
      rfl
    · rw [List.getElem?_set_ne hij] at hb
      exact (h.resolve_left (Ne.symm hij)) b hb
  case h_2 hi =>
    rcases h with rfl | h
    · cases b with
      | complete failure => rfl
      | running target entries => exact absurd hb (hi target entries)
    · exact h b hb

/-- To complete backups forgets none (`completeEach`), so the places in the row stay. -/
@[simp] theorem length_completeEach (is : List Nat) (l : BackupLimiter) (fs : FileSystem) :
    (completeEach is l fs).1.inFlight.length = l.inFlight.length := by
  induction is generalizing l fs with
  | nil => rfl
  | cons i rest ih => exact (ih _ _).trans (length_complete l i fs)

/-- Behind `completeEach` none of the backups at the given places is running, and none runs that did
not run before. -/
theorem isRunning_completeEach {is : List Nat} {j : Nat}
    (h : j ∈ is ∨ ∀ b ∈ l.inFlight[j]?, b.isRunning = false) :
    ∀ b ∈ (completeEach is l fs).1.inFlight[j]?, b.isRunning = false := by
  induction is generalizing l fs with
  | nil => exact h.resolve_left List.not_mem_nil
  | cons i rest ih =>
    refine ih ?_
    rcases h with h | h
    · rcases List.mem_cons.1 h with rfl | h
      · exact .inr (isRunning_complete (.inl rfl))
      · exact .inl h
    · exact .inr (isRunning_complete (.inr h))

/-- When the backups at all places were completed (`completeEach`), none is running. -/
theorem isRunning_completeAll (l : BackupLimiter) (fs : FileSystem) :
    ∀ b ∈ (completeEach (List.range l.inFlight.length) l fs).1.inFlight, b.isRunning = false := by
  intro b hb
  obtain ⟨j, hj⟩ := List.mem_iff_getElem?.1 hb
  obtain ⟨hlt, -⟩ := List.getElem?_eq_some_iff.1 hj
  rw [length_completeEach] at hlt
  exact isRunning_completeEach (.inl (List.mem_range.2 hlt)) b hj

/-- What `waitAll` tells is the first failure in the row once all backups are complete. -/
theorem failure_waitAll (l : BackupLimiter) (fs : FileSystem) :
    (l.waitAll fs).1 =
      (completeEach (List.range l.inFlight.length) l fs).1.inFlight.findSome? Backup.failure? :=
  rfl

/-- Behind `waitAll` no backup is pending, and the slots of those that ran are free. -/
theorem limiter_waitAll (l : BackupLimiter) (fs : FileSystem) :
    (l.waitAll fs).2.1 =
      ⟨(completeEach (List.range l.inFlight.length) l fs).1.slots, []⟩ :=
  rfl

/-! ## Starting a backup -/

/-- A backup has to wait by `start?` if and only if no slot is free. -/
theorem start?_eq_none {target : Path} {entries : List Entry} :
    l.start? target entries = none ↔ l.slots.permits = 0 := by
  obtain ⟨⟨permits⟩, inFlight⟩ := l
  cases permits <;> simp [start?, Semaphore.acquire?]

/-- Where a slot is free `start` is `start?`, and no file changes. -/
theorem start_of_free {target : Path} {entries : List Entry} {l' : BackupLimiter}
    (h : l.start? target entries = some l') (fs : FileSystem) :
    l.start target entries fs = (l', fs) := by
  rw [start, h]

/-- Where no slot is free, `start` completes one backup that is running, and then there is a slot
for the new one. -/
theorem start_of_full {target : Path} {entries : List Entry}
    (hslots : l.slots.permits = 0) (hrunning : ∃ b ∈ l.inFlight, b.isRunning = true)
    (fs : FileSystem) :
    ∃ i target' entries' l', l.inFlight[i]? = some (.running target' entries') ∧
      (l.complete i fs).1.start? target entries = some l' ∧
      l.start target entries fs = (l', (l.complete i fs).2) := by
  have hlt : l.inFlight.findIdx Backup.isRunning < l.inFlight.length :=
    List.findIdx_lt_length.2 hrunning
  have hfirst : l.inFlight[l.inFlight.findIdx Backup.isRunning].isRunning = true :=
    List.findIdx_getElem
  cases hi : l.inFlight[l.inFlight.findIdx Backup.isRunning] with
  | complete failure =>
    rw [hi] at hfirst
    cases hfirst
  | running target' entries' =>
    have hget := List.getElem?_eq_some_iff.2 ⟨hlt, hi⟩
    cases hstart :
      (l.complete (l.inFlight.findIdx Backup.isRunning) fs).1.start? target entries with
    | none =>
      rw [complete_of_running hget] at hstart
      cases hstart
    | some l' =>
      refine ⟨_, target', entries', l', hget, hstart, ?_⟩
      rw [start, start?_eq_none.2 hslots]
      simp only [hstart, Option.getD_some]

end BackupLimiter

end KeyWatch
