import Mathlib.Data.List.Nodup
import KeyWatch.Backup.Limiter

/-!
# What a wait tells of backups that failed

Backups are written on the side, and it is nobody's choice when a writer gives its slot back and
when it is done. So backups are numbered as they start (`Writers`), and what happens is a row of
events in any order that the limiter lets happen (`Writers.Step`): a backup starts, a writer gives
its slot back, a writer is done, somebody asks for all backups to be waited for, and he is answered
when those that he asked for are done. What the limiter does at a single stroke, starting a backup
or waiting for all, is such a row as well (`Writers.Orderly.start`, `Writers.Orderly.waitAll`).

Of a row of events it can be said which backups were started since somebody last asked, what became
of each, and which were *overtaken*: they were done when another one started. That is all there is
to know (`Writers.Tells`), since a backup that is overtaken is forgotten, and no other is. An answer
is therefore the failure of the earliest that failed, of those that were not overtaken
(`Writers.answer_iff_of_goes`). The failure of one that was overtaken is lost.
-/

namespace KeyWatch

/-- What happens with backups, in the order in which `Writers.Step` lets it happen. -/
inductive BackupEvent where
  /-- a backup starts -/
  | started (target : Path) (entries : List Entry)
  /-- the writer of a number gives its slot back -/
  | freed (number : Nat)
  /-- the writer of a number is done -/
  | ended (number : Nat) (failure : Option Error)
  /-- somebody asks for all backups to be waited for -/
  | asked
  /-- the one who asked after some others is answered -/
  | answered (asker : Nat) (failure : Option Error)
  deriving DecidableEq, Repr

/-- What became of a backup, once it is complete: that it went well, or its failure. -/
def Backup.fate? : Backup → Option (Option Error)
  | running _ _ => none
  | complete failure => some failure

/-- A backup is running (`isRunning`) just if nothing has become of it yet. -/
theorem Backup.isRunning_eq (b : Backup) : b.isRunning = b.fate?.isNone := by
  cases b <;> rfl

/-- The failure of a backup (`failure?`) is what became of it, if it is done and failed. -/
theorem Backup.failure?_eq (b : Backup) : b.failure? = b.fate?.join := by
  cases b <;> rfl

/-! ## Events, the latest first -/

namespace BackupEvent

/-- How many backups were started (`BackupEvent.started`), which is the number of the next. -/
def starts : List BackupEvent → Nat
  | [] => 0
  | .started _ _ :: past => starts past + 1
  | _ :: past => starts past

/-- How many have asked (`BackupEvent.asked`), which is the number of the next who asks. -/
def asks : List BackupEvent → Nat
  | [] => 0
  | .asked :: past => asks past + 1
  | _ :: past => asks past

/-- The backups that were started since somebody asked, in order, by their numbers (`starts`). -/
def since : List BackupEvent → List Nat
  | [] => []
  | .started _ _ :: past => since past ++ [starts past]
  | .asked :: _ => []
  | _ :: past => since past

/-- What became of a backup by the events, if it is done (`BackupEvent.ended`). -/
def fate? : List BackupEvent → Nat → Option (Option Error)
  | [], _ => none
  | .ended m failure :: past, n => if m = n then some failure else fate? past n
  | _ :: past, n => fate? past n

/-- The failure of a backup that is done and failed, by the events (`fate?`). -/
def failure? (past : List BackupEvent) (n : Nat) : Option Error := (fate? past n).join

/-- Whether a backup was done when another one started, as `BackupLimiter.start?` forgets it
then. -/
def overtaken : List BackupEvent → Nat → Bool
  | [], _ => false
  | .started _ _ :: past, n => (fate? past n).isSome || overtaken past n
  | _ :: past, n => overtaken past n

/-- The backups `since` somebody asked that were not `overtaken`. -/
def kept (past : List BackupEvent) : List Nat := (since past).filter fun n => !overtaken past n

/-- The backups that everybody who asked has to wait for, those `kept` at that moment. -/
def takings : List BackupEvent → List (List Nat)
  | [] => []
  | .asked :: past => takings past ++ [kept past]
  | _ :: past => takings past

/-- As many `takings` are there as have asked. -/
theorem length_takings (past : List BackupEvent) : (takings past).length = asks past := by
  induction past with
  | nil => rfl
  | cons e past ih =>
    cases e <;> simp [takings, asks, ih]

/-- Who asks has to wait for those that were `kept` then. -/
theorem getElem?_takings (later before : List BackupEvent) :
    (takings (later ++ .asked :: before))[asks before]? = some (kept before) := by
  induction later with
  | nil =>
    rw [List.nil_append, takings, ← length_takings]
    exact List.getElem?_concat_length
  | cons e later ih =>
    cases e
    case asked =>
      obtain ⟨hlt, -⟩ := List.getElem?_eq_some_iff.1 ih
      rw [List.cons_append, takings, List.getElem?_append_left hlt, ih]
    all_goals exact ih

/-- A backup `since` somebody asked was started. -/
theorem lt_starts_of_mem_since {past : List BackupEvent} {n : Nat} (h : n ∈ since past) :
    n < starts past := by
  induction past with
  | nil => cases h
  | cons e past ih =>
    cases e
    case started =>
      rcases List.mem_append.1 h with h | h
      · exact Nat.lt_succ_of_lt (ih h)
      · exact List.mem_singleton.1 h ▸ Nat.lt_succ_self _
    case asked => cases h
    all_goals exact ih h

/-- A backup that is `kept` was started. -/
theorem lt_starts_of_mem_kept {past : List BackupEvent} {n : Nat} (h : n ∈ kept past) :
    n < starts past :=
  lt_starts_of_mem_since (List.mem_filter.1 h).1

/-- A backup that somebody waits for (`takings`) was started. -/
theorem lt_starts_of_mem_takings {past : List BackupEvent} {taken : List Nat}
    (h : taken ∈ takings past) {n : Nat} (hn : n ∈ taken) : n < starts past := by
  induction past with
  | nil => cases h
  | cons e past ih =>
    cases e
    case started => exact Nat.lt_succ_of_lt (ih h)
    case asked =>
      rcases List.mem_append.1 h with h | h
      · exact ih h
      · rw [List.mem_singleton.1 h] at hn
        exact (lt_starts_of_mem_kept hn : n < starts past)
    all_goals exact ih h

/-- A backup that is `overtaken` is done. -/
theorem isSome_fate?_of_overtaken {past : List BackupEvent} {n : Nat}
    (h : overtaken past n = true) : (fate? past n).isSome = true := by
  induction past with
  | nil => cases h
  | cons e past ih =>
    cases e
    case started => exact (Bool.or_eq_true_iff.1 h).elim id ih
    case ended m failure =>
      rw [fate?]
      split
      · rfl
      · exact ih h
    all_goals exact ih h

/-- A backup that is done (`fate?`) stays done. -/
theorem isSome_fate?_append {before : List BackupEvent} {n : Nat}
    (h : (fate? before n).isSome = true) (later : List BackupEvent) :
    (fate? (later ++ before) n).isSome = true := by
  induction later with
  | nil => exact h
  | cons e later ih =>
    cases e
    case ended m failure =>
      rw [List.cons_append, fate?]
      split
      · rfl
      · exact ih
    all_goals exact ih

/-- A start overtakes those that are done, and is not overtaken itself: `kept` are those that are
running, and the new one last. -/
theorem kept_started {past : List BackupEvent} (hfresh : fate? past (starts past) = none)
    (target : Path) (entries : List Entry) :
    kept (.started target entries :: past) =
      (kept past).filter (fun n => (fate? past n).isNone) ++ [starts past] := by
  have hnew : overtaken past (starts past) = false := by
    refine Bool.eq_false_iff.2 fun h => ?_
    have hdone := isSome_fate?_of_overtaken h
    rw [hfresh] at hdone
    cases hdone
  rw [kept, since, List.filter_append, kept, List.filter_filter]
  congr 1
  · refine List.filter_congr fun n _ => ?_
    rw [overtaken]
    cases fate? past n <;> simp
  · simp [overtaken, hfresh, hnew]

/-- Once those that were `kept` are done, so are all: the others were done when they were
overtaken. -/
theorem forall_kept (later before : List BackupEvent) :
    (∀ n ∈ kept before, (fate? (later ++ .asked :: before) n).isSome = true) ↔
      ∀ n ∈ since before, (fate? (later ++ .asked :: before) n).isSome = true := by
  refine ⟨fun h n hn => ?_, fun h n hn => h n (List.mem_filter.1 hn).1⟩
  cases hovertaken : overtaken before n with
  | true =>
    have hdone : (fate? (.asked :: before) n).isSome = true :=
      isSome_fate?_of_overtaken hovertaken
    exact isSome_fate?_append hdone later
  | false => exact h n (List.mem_filter.2 ⟨hn, by rw [hovertaken]; rfl⟩)

/-- Where those who were overtaken did not fail, no failure is missed among those `kept`. -/
theorem findSome?_kept {before : List BackupEvent} {f : Nat → Option Error}
    (h : ∀ n ∈ since before, overtaken before n = true → f n = none) :
    (kept before).findSome? f = (since before).findSome? f := by
  rw [kept, ← List.head?_filterMap, ← List.head?_filterMap, List.filterMap_filter]
  refine congrArg List.head? (List.filterMap_congr fun n hn => ?_)
  cases hovertaken : overtaken before n with
  | false => rfl
  | true => exact (h n hn hovertaken).symm

end BackupEvent

/-! ## Writers -/

/-- The writers of a limiter: the free slots, the backups that are not forgotten, in order and with
their numbers, how many backups were started, who has a slot, and the backups that everybody who
asked has to wait for (`BackupLimiter`). -/
structure Writers where
  slots : Semaphore
  inFlight : List (Nat × Backup)
  started : Nat
  writing : List Nat
  askers : List (List (Nat × Backup))
  deriving DecidableEq, Repr

namespace Writers

/-- The writers of the limiter of at most some backups at a time, before anything happens
(`BackupLimiter.ofMax`). -/
def ofMax (maxBackups : Nat) : Writers := ⟨(BackupLimiter.ofMax maxBackups).slots, [], 0, [], []⟩

/-- The limiter of the writers, a `BackupLimiter`, which knows of no numbers. -/
def limiter (s : Writers) : BackupLimiter := ⟨s.slots, s.inFlight.map Prod.snd⟩

/-- A backup is known: it is not forgotten (`inFlight`), or somebody waits for it. -/
def Knows (s : Writers) (p : Nat × Backup) : Prop :=
  p ∈ s.inFlight ∨ ∃ taken ∈ s.askers, p ∈ taken

/-- The backup of a number is done (`Backup.complete`); the others are as they were. -/
def conclude (n : Nat) (failure : Option Error) (p : Nat × Backup) : Nat × Backup :=
  if p.1 = n then (n, .complete failure) else p

/-- A backup that is concluded keeps its number (`conclude`). -/
@[simp] theorem fst_conclude (n : Nat) (failure : Option Error) (p : Nat × Backup) :
    (conclude n failure p).1 = p.1 := by
  rw [conclude]
  split
  case isTrue h => exact h.symm
  case isFalse => rfl

/-- A row of backups of which one is concluded keeps its numbers (`conclude`). -/
theorem map_fst_conclude (row : List (Nat × Backup)) (n : Nat) (failure : Option Error) :
    (row.map (conclude n failure)).map Prod.fst = row.map Prod.fst := by
  rw [List.map_map]
  exact List.map_congr_left fun p _ => fst_conclude n failure p

/-- What became of a backup is what it was concluded with, if it was (`conclude`). -/
theorem fate?_conclude (n : Nat) (failure : Option Error) (p : Nat × Backup) :
    (conclude n failure p).2.fate? = if n = p.1 then some failure else p.2.fate? := by
  by_cases h : p.1 = n
  · rw [conclude, if_pos h, if_pos h.symm]
    rfl
  · rw [conclude, if_neg h, if_neg (Ne.symm h)]

/-- What can happen, and what comes of it. A backup starts by `BackupLimiter.start?` only where a
slot is free, which its writer gives back before it is done. -/
inductive Step : Writers → BackupEvent → Writers → Prop
  | started {s : Writers} {target : Path} {entries : List Entry} {l : BackupLimiter}
      (free : s.limiter.start? target entries = some l) :
      Step s (.started target entries)
        { s with
          slots := l.slots
          inFlight := s.inFlight.filter (fun p => p.2.isRunning) ++
            [(s.started, .running target entries)]
          started := s.started + 1
          writing := s.writing ++ [s.started] }
  | freed {s : Writers} {n : Nat} (writing : n ∈ s.writing) :
      Step s (.freed n) { s with slots := s.slots.release, writing := s.writing.erase n }
  | ended {s : Writers} {n : Nat} {target : Path} {entries : List Entry} {failure : Option Error}
      (freed : n ∉ s.writing) (known : s.Knows (n, .running target entries)) :
      Step s (.ended n failure)
        { s with
          inFlight := s.inFlight.map (conclude n failure)
          askers := s.askers.map fun taken => taken.map (conclude n failure) }
  | asked {s : Writers} :
      Step s .asked { s with inFlight := [], askers := s.askers ++ [s.inFlight] }
  | answered {s : Writers} {asker : Nat} {taken : List (Nat × Backup)}
      (asked : s.askers[asker]? = some taken) (ended : ∀ p ∈ taken, p.2.isRunning = false) :
      Step s (.answered asker (taken.findSome? fun p => p.2.failure?)) s

/-- Events happen one after another (`Step`); the row of them has the latest first. -/
inductive Goes : Writers → List BackupEvent → Writers → Prop
  | refl (s : Writers) : Goes s [] s
  | step {s s' s'' : Writers} {past : List BackupEvent} {e : BackupEvent} (goes : Goes s past s')
      (last : Step s' e s'') : Goes s (e :: past) s''

/-- Events that happen behind others happen in one row with them (`Goes`). -/
theorem Goes.trans {s s' s'' : Writers} {past later : List BackupEvent} (h : Goes s past s')
    (h' : Goes s' later s'') : Goes s (later ++ past) s'' := by
  induction h' with
  | refl => exact h
  | step _ last ih => exact .step ih last

/-- A backup that starts among the writers starts in the limiter by `BackupLimiter.start?`. -/
theorem Step.start?_limiter {s s' : Writers} {target : Path} {entries : List Entry}
    (h : s.Step (.started target entries) s') :
    s.limiter.start? target entries = some s'.limiter := by
  cases h with
  | started free =>
    obtain ⟨slots, hslots, rfl⟩ := Option.map_eq_some_iff.1 free
    rw [free]
    simp [limiter, List.filter_map, Function.comp_def]

/-- What is known once a backup is done was known before (`Knows`). -/
theorem knows_of_conclude {s : Writers} {n : Nat} {failure : Option Error} {q : Nat × Backup}
    (h : Knows { s with
      inFlight := s.inFlight.map (conclude n failure)
      askers := s.askers.map fun taken => taken.map (conclude n failure) } q) :
    ∃ p, s.Knows p ∧ conclude n failure p = q := by
  rcases h with hq | ⟨_, htaken, hq⟩
  · obtain ⟨p, hp, hpq⟩ := List.mem_map.1 hq
    exact ⟨p, .inl hp, hpq⟩
  · obtain ⟨taken, hold, rfl⟩ := List.mem_map.1 htaken
    obtain ⟨p, hp, hpq⟩ := List.mem_map.1 hq
    exact ⟨p, .inr ⟨taken, hold, hp⟩, hpq⟩

/-! ## What the events tell of the writers -/

/-- The events tell who the writers are: those that are not forgotten are those that were started
since somebody asked and were not overtaken (`BackupEvent.kept`), and whoever asked waits for those
that there were then. -/
structure Tells (past : List BackupEvent) (s : Writers) : Prop where
  started : s.started = BackupEvent.starts past
  fresh : ∀ n, BackupEvent.starts past ≤ n → BackupEvent.fate? past n = none
  numbers : s.inFlight.map Prod.fst = BackupEvent.kept past
  askers : s.askers.map (List.map Prod.fst) = BackupEvent.takings past
  fate : ∀ p, s.Knows p → p.2.fate? = BackupEvent.fate? past p.1

namespace Tells

variable {past : List BackupEvent} {s s' : Writers} {e : BackupEvent}

/-- Before anything happens the events tell who the writers are (`Tells`): there are none. -/
theorem ofMax (maxBackups : Nat) : Tells [] (ofMax maxBackups) where
  started := rfl
  fresh _ _ := rfl
  numbers := rfl
  askers := rfl
  fate p hp := by
    rcases hp with hp | ⟨taken, htaken, -⟩
    · cases hp
    · cases htaken

/-- A backup that is known was started, as the events tell (`BackupEvent.starts`). -/
theorem lt_starts (h : Tells past s) {p : Nat × Backup} (hp : s.Knows p) :
    p.1 < BackupEvent.starts past := by
  rcases hp with hp | ⟨taken, htaken, hp⟩
  · exact BackupEvent.lt_starts_of_mem_kept (h.numbers ▸ List.mem_map_of_mem hp)
  · exact BackupEvent.lt_starts_of_mem_takings (h.askers ▸ List.mem_map_of_mem htaken)
      (List.mem_map_of_mem hp)

/-- A start leaves those that are not done, and the new one comes last, as `BackupEvent.kept`
says. -/
theorem numbers_started (h : Tells past s) (target : Path) (entries : List Entry) :
    (s.inFlight.filter (fun p => p.2.isRunning) ++
        [(s.started, Backup.running target entries)]).map Prod.fst =
      BackupEvent.kept (.started target entries :: past) := by
  have hrunning : s.inFlight.filter (fun p => p.2.isRunning) =
      s.inFlight.filter fun p => (BackupEvent.fate? past p.1).isNone := by
    refine List.filter_congr fun p hp => ?_
    rw [Backup.isRunning_eq, h.fate p (.inl hp)]
  rw [BackupEvent.kept_started (h.fresh _ (Nat.le_refl _)), ← h.numbers, List.filter_map,
    List.map_append, h.started, hrunning]
  rfl

/-- When another event has come (`Step`), the events tell who the writers are then; one case for
each constructor. -/
theorem step (h : Tells past s) (hstep : s.Step e s') : Tells (e :: past) s' := by
  cases hstep with
  | @started target entries l free =>
    refine ⟨congrArg (· + 1) h.started, fun n hn => h.fresh n (Nat.le_of_succ_le hn),
      h.numbers_started target entries, h.askers, fun p hp => ?_⟩
    rcases hp with hp | hasked
    · rcases List.mem_append.1 hp with hold | hnew
      · exact h.fate p (.inl (List.mem_filter.1 hold).1)
      · obtain rfl := List.mem_singleton.1 hnew
        exact (h.fresh s.started (Nat.le_of_eq h.started.symm)).symm
    · exact h.fate p (.inr hasked)
  | freed => exact ⟨h.started, h.fresh, h.numbers, h.askers, h.fate⟩
  | @ended n target entries failure freed known =>
    refine ⟨h.started, fun m hm => ?_, ?_, ?_, fun q hq => ?_⟩
    · have hne : n ≠ m := Nat.ne_of_lt (Nat.lt_of_lt_of_le (h.lt_starts known) hm)
      rw [BackupEvent.fate?, if_neg hne]
      exact h.fresh m hm
    · rw [map_fst_conclude]
      exact h.numbers
    · rw [List.map_map]
      exact (List.map_congr_left fun taken _ => map_fst_conclude taken n failure).trans h.askers
    · obtain ⟨p, hp, rfl⟩ := knows_of_conclude hq
      rw [fate?_conclude, fst_conclude, h.fate p hp]
      rfl
  | asked =>
    refine ⟨h.started, h.fresh, rfl, ?_, fun p hp => h.fate p ?_⟩
    · rw [List.map_append, h.askers, BackupEvent.takings, ← h.numbers]
      rfl
    · rcases hp with hnone | ⟨taken, htaken, hp⟩
      · cases hnone
      · rcases List.mem_append.1 htaken with hold | hnew
        · exact .inr ⟨taken, hold, hp⟩
        · exact .inl (List.mem_singleton.1 hnew ▸ hp)
  | answered => exact ⟨h.started, h.fresh, h.numbers, h.askers, h.fate⟩

/-- Whatever happens to a limiter (`Goes`), the events tell who its writers are. -/
theorem goes (h : Tells [] s) (hgoes : Goes s past s') : Tells past s' := by
  induction hgoes with
  | refl => exact h
  | step _ last ih => exact ih.step last

end Tells

/-! ## Answers -/

/-- What an answer says to one who asked when some events had happened: all backups since somebody
asked before him are done, and the answer is the failure of the earliest that failed, of those that
were not overtaken (`BackupEvent.kept`). So it is that of the earliest that failed at all, if no
backup that failed was overtaken. -/
structure Answer (before past : List BackupEvent) (answer : Option Error) : Prop where
  ended : ∀ n ∈ BackupEvent.since before, (BackupEvent.fate? past n).isSome = true
  earliest : answer = (BackupEvent.kept before).findSome? (BackupEvent.failure? past)
  whole :
    (∀ n ∈ BackupEvent.since before, BackupEvent.overtaken before n = true →
        BackupEvent.failure? past n = none) →
      answer = (BackupEvent.since before).findSome? (BackupEvent.failure? past)

variable {later before : List BackupEvent} {s : Writers}

/-- Somebody who asked waits for the backups that were not overtaken then (`BackupEvent.kept`). -/
theorem Tells.exists_taken (h : Tells (later ++ .asked :: before) s) :
    ∃ taken, s.askers[BackupEvent.asks before]? = some taken ∧
      taken.map Prod.fst = BackupEvent.kept before ∧
      ∀ p ∈ taken, p.2.fate? = BackupEvent.fate? (later ++ .asked :: before) p.1 := by
  have hasker := BackupEvent.getElem?_takings later before
  rw [← h.askers, List.getElem?_map] at hasker
  obtain ⟨taken, htaken, hnumbers⟩ := Option.map_eq_some_iff.1 hasker
  exact ⟨taken, htaken, hnumbers,
    fun p hp => h.fate p (.inr ⟨taken, List.mem_of_getElem? htaken, hp⟩)⟩

section
variable {past : List BackupEvent} {taken : List (Nat × Backup)}

/-- The first failure of the backups that somebody waits for is the one that the events tell
(`BackupEvent.failure?`). -/
theorem findSome?_failure? (hfate : ∀ p ∈ taken, p.2.fate? = BackupEvent.fate? past p.1) :
    (taken.findSome? fun p => p.2.failure?) =
      (taken.map Prod.fst).findSome? (BackupEvent.failure? past) := by
  rw [List.findSome?_map, ← List.head?_filterMap, ← List.head?_filterMap]
  refine congrArg List.head? (List.filterMap_congr fun p hp => ?_)
  rw [Backup.failure?_eq, hfate p hp]
  rfl

/-- The backups that somebody waits for are all done just if the events tell so
(`BackupEvent.fate?`). -/
theorem forall_isRunning_eq_false
    (hfate : ∀ p ∈ taken, p.2.fate? = BackupEvent.fate? past p.1) :
    (∀ p ∈ taken, p.2.isRunning = false) ↔
      ∀ n ∈ taken.map Prod.fst, (BackupEvent.fate? past n).isSome = true := by
  rw [List.forall_mem_map]
  refine forall₂_congr fun p hp => ?_
  rw [Backup.isRunning_eq, hfate p hp]
  exact Option.isNone_eq_false_iff

end

/-- In whatever order backups start, writers give their slots back and are done, and others ask and
are answered (`Goes`): one who asked can be answered just if the backups that he asked for are done,
and only with what the events tell (`Answer`). -/
theorem answer_iff_of_goes {maxBackups : Nat}
    (h : Goes (ofMax maxBackups) (later ++ .asked :: before) s) (answer : Option Error) :
    (∃ s', s.Step (.answered (BackupEvent.asks before) answer) s') ↔
      Answer before (later ++ .asked :: before) answer := by
  obtain ⟨taken, htaken, hnumbers, hfate⟩ := ((Tells.ofMax maxBackups).goes h).exists_taken
  have hearliest := findSome?_failure? hfate
  have hended := (forall_isRunning_eq_false hfate).trans
    (hnumbers ▸ BackupEvent.forall_kept later before)
  rw [hnumbers] at hearliest
  constructor
  · rintro ⟨_, hstep⟩
    cases hstep with
    | answered hasker hidle =>
      obtain rfl := Option.some.inj (htaken.symm.trans hasker)
      exact ⟨hended.1 hidle, hearliest,
        fun hlost => hearliest.trans (BackupEvent.findSome?_kept hlost)⟩
  · rintro ⟨hdone, rfl, -⟩
    rw [← hearliest]
    exact ⟨s, .answered htaken (hended.2 hdone)⟩

/-- The failure of a backup whose disk is full, as the system words it (`Error.io`). -/
def diskFull : Error := .io ⟨.other, "No space left on device (os error 28)"⟩

/-- Two backups start, and the second fails, with `diskFull`. -/
def secondFails : List BackupEvent :=
  [.ended 1 (some diskFull), .freed 1, .started ⟨[]⟩ [], .started ⟨[]⟩ []]

/-- The first of two backups is done after somebody has asked for both. He is answered with the
failure of the second (`secondFails`). -/
theorem answer_iff_of_goes_secondFails :
    ∃ s s', Goes (ofMax 2) ([.ended 0 none, .freed 0] ++ .asked :: secondFails) s ∧
      s.Step (.answered 0 (some diskFull)) s' := by
  have hfailed : Goes (ofMax 2) secondFails _ :=
    .step (.step (.step (.step (.refl _) (.started rfl)) (.started rfl)) (.freed (by decide)))
      (.ended (by decide) (.inl (List.mem_cons_of_mem _ (List.mem_singleton.2 rfl))))
  have hdone : Goes (ofMax 2) ([.ended 0 none, .freed 0] ++ .asked :: secondFails) _ :=
    .step (.step (.step hfailed .asked) (.freed (by decide)))
      (.ended (by decide) (.inr ⟨_, List.mem_singleton.2 rfl, List.mem_cons_self⟩))
  have hanswer : Answer secondFails ([.ended 0 none, .freed 0] ++ .asked :: secondFails)
      (some diskFull) := ⟨by decide, rfl, fun _ => rfl⟩
  obtain ⟨s', hstep⟩ := (answer_iff_of_goes hdone (some diskFull)).2 hanswer
  exact ⟨_, s', hdone, hstep⟩

/-- A backup fails with `diskFull`, and another one overtakes it. -/
def failureOvertaken : List BackupEvent :=
  [.ended 1 none, .freed 1, .started ⟨[]⟩ [], .ended 0 (some diskFull), .freed 0,
    .started ⟨[]⟩ []]

/-- One who asks when a backup that failed was overtaken (`failureOvertaken`) is told of no
failure. -/
theorem answer_losesFailure :
    BackupEvent.since failureOvertaken = [0, 1] ∧
      (BackupEvent.since failureOvertaken).findSome?
        (BackupEvent.failure? (.asked :: failureOvertaken)) = some diskFull ∧
      ∃ s s', Goes (ofMax 1) (.asked :: failureOvertaken) s ∧ s.Step (.answered 0 none) s' := by
  have hfailed : Goes (ofMax 1) [.ended 0 (some diskFull), .freed 0, .started ⟨[]⟩ []] _ :=
    .step (.step (.step (.refl _) (.started rfl)) (.freed (by decide)))
      (.ended (by decide) (.inl List.mem_cons_self))
  have hdone : Goes (ofMax 1) (.asked :: failureOvertaken) _ :=
    .step (.step (.step (.step hfailed (.started rfl)) (.freed (by decide)))
      (.ended (by decide) (.inl List.mem_cons_self))) .asked
  have htaken : ∀ p ∈ [((1 : Nat), Backup.complete none)], p.2.isRunning = false := by decide
  exact ⟨rfl, rfl, _, _, hdone, .answered rfl htaken⟩

/-! ## At a single stroke -/

/-- The writers between two calls of which each is made at a single stroke: whoever has a slot is
running, and whoever is running has one, unless somebody waits for it (`writing`). -/
structure Orderly (s : Writers) : Prop where
  numbered : (s.inFlight.map Prod.fst).Nodup
  older : ∀ p ∈ s.inFlight, p.1 < s.started
  single : s.writing.Nodup
  writing_older : ∀ n ∈ s.writing, n < s.started
  writing : ∀ p ∈ s.inFlight, p.2.isRunning = true → p.1 ∈ s.writing
  slots : s.slots.permits = 0 → ∃ p ∈ s.inFlight, p.2.isRunning = true

/-- Before anything happens the writers are `Orderly`: there are none. -/
theorem orderly_ofMax (maxBackups : Nat) : (ofMax maxBackups).Orderly where
  numbered := List.nodup_nil
  older := nofun
  single := List.nodup_nil
  writing_older := nofun
  writing := nofun
  slots h := absurd h (Nat.ne_of_gt (Nat.le_max_right maxBackups 1))

/-- A number that is greater than all in a row stands behind them without being there twice
(`List.Nodup`). -/
theorem nodup_append_singleton {numbers : List Nat} {n : Nat} (h : numbers.Nodup)
    (hnew : ∀ m ∈ numbers, m < n) : (numbers ++ [n]).Nodup := by
  refine h.append (List.nodup_singleton n) fun m hm hsame => ?_
  rw [List.mem_singleton.1 hsame] at hm
  exact Nat.lt_irrefl n (hnew n hm)

/-- Of backups with different numbers, the one at a place is concluded (`conclude`). -/
theorem map_snd_conclude {row : List (Nat × Backup)} (hnumbered : (row.map Prod.fst).Nodup)
    {i n : Nat} {b : Backup} (hi : row[i]? = some (n, b)) (failure : Option Error) :
    (row.map (conclude n failure)).map Prod.snd =
      (row.map Prod.snd).set i (.complete failure) := by
  refine List.ext_getElem? fun j => ?_
  rw [List.getElem?_map, List.getElem?_map]
  by_cases hij : i = j
  · subst hij
    rw [List.getElem?_set_self', List.getElem?_map, hi]
    simp [conclude]
  · rw [List.getElem?_set_ne hij, List.getElem?_map]
    cases hj : row[j]? with
    | none => rfl
    | some p =>
      have hne : p.1 ≠ n := by
        rintro rfl
        obtain ⟨hlt, -⟩ := List.getElem?_eq_some_iff.1 hi
        refine hij ((List.getElem?_inj (by rwa [List.length_map]) hnumbered).1 ?_)
        rw [List.getElem?_map, List.getElem?_map, hi, hj]
        rfl
      simp [conclude, hne]

namespace Orderly

/-- A running backup that is completed by `BackupLimiter.complete` gives its slot back and is done,
and the writers stay `Orderly`. -/
theorem complete_running (h : s.Orderly) {i n : Nat} {target : Path} {entries : List Entry}
    (hi : s.inFlight[i]? = some (n, .running target entries)) (fs : FileSystem) :
    ∃ failure s', Goes s [.ended n failure, .freed n] s' ∧
      s'.limiter = (s.limiter.complete i fs).1 ∧ s'.Orderly ∧
      s'.askers.length = s.askers.length := by
  have hmem := List.mem_of_getElem? hi
  have hwriting := h.writing _ hmem rfl
  have hfreed : n ∉ s.writing.erase n := h.single.not_mem_erase
  have hrunning : s.limiter.inFlight[i]? = some (.running target entries) := by
    rw [limiter, List.getElem?_map, hi]
    rfl
  refine ⟨(writeSnapshot target entries fs).1, _,
    .step (.step (.refl s) (.freed hwriting)) (.ended hfreed (.inl hmem)), ?_, ?_, ?_⟩
  · rw [BackupLimiter.complete_of_running hrunning]
    exact congrArg (BackupLimiter.mk _) (map_snd_conclude h.numbered hi _)
  · refine ⟨?_, ?_, h.single.erase n, ?_, ?_, nofun⟩
    · rw [map_fst_conclude]
      exact h.numbered
    · intro q hq
      obtain ⟨p, hp, rfl⟩ := List.mem_map.1 hq
      rw [fst_conclude]
      exact h.older p hp
    · exact fun m hm => h.writing_older m (List.mem_of_mem_erase hm)
    · intro q hq hrunning
      obtain ⟨p, hp, rfl⟩ := List.mem_map.1 hq
      rw [Backup.isRunning_eq, fate?_conclude] at hrunning
      rw [fst_conclude]
      split at hrunning
      · cases hrunning
      case isFalse hne =>
        rw [← Backup.isRunning_eq] at hrunning
        exact (List.mem_erase_of_ne (Ne.symm hne)).2 (h.writing p hp hrunning)
  · exact List.length_map _

/-- Completing a backup at a single stroke by `BackupLimiter.complete` is a row of events. -/
theorem complete (h : s.Orderly) (i : Nat) (fs : FileSystem) :
    ∃ past s', Goes s past s' ∧ s'.limiter = (s.limiter.complete i fs).1 ∧ s'.Orderly ∧
      s'.askers.length = s.askers.length := by
  by_cases hrunning : ∃ n target entries, s.inFlight[i]? = some (n, .running target entries)
  · obtain ⟨n, target, entries, hi⟩ := hrunning
    obtain ⟨failure, s', hgoes, hrest⟩ := h.complete_running hi fs
    exact ⟨_, s', hgoes, hrest⟩
  · have hidle : ∀ b ∈ s.limiter.inFlight[i]?, b.isRunning = false := by
      intro b hb
      rw [limiter, List.getElem?_map] at hb
      obtain ⟨⟨n, b⟩, hi, rfl⟩ := Option.map_eq_some_iff.1 hb
      cases b with
      | complete failure => rfl
      | running target entries => exact absurd ⟨n, target, entries, hi⟩ hrunning
    rw [BackupLimiter.complete_of_idle hidle]
    exact ⟨[], s, .refl s, rfl, h, rfl⟩

/-- Completing backups one after another by `BackupLimiter.completeEach` is a row of events. -/
theorem completeEach (h : s.Orderly) (is : List Nat) (fs : FileSystem) :
    ∃ past s', Goes s past s' ∧
      s'.limiter = (BackupLimiter.completeEach is s.limiter fs).1 ∧ s'.Orderly ∧
      s'.askers.length = s.askers.length := by
  induction is generalizing s fs with
  | nil => exact ⟨[], s, .refl s, rfl, h, rfl⟩
  | cons i rest ih =>
    obtain ⟨past, s', hgoes, hlimiter, horderly, hlength⟩ := h.complete i fs
    obtain ⟨later, s'', hgoes', hlimiter', horderly', hlength'⟩ :=
      ih horderly (s.limiter.complete i fs).2
    rw [hlimiter] at hlimiter'
    exact ⟨later ++ past, s'', hgoes.trans hgoes', hlimiter', horderly', hlength'.trans hlength⟩

/-- Waiting for all backups at a single stroke by `BackupLimiter.waitAll` is a row of events, and
its result an answer. -/
theorem waitAll (h : s.Orderly) (fs : FileSystem) :
    ∃ past s',
      Goes s (.answered s.askers.length (s.limiter.waitAll fs).1 :: .asked :: past) s' ∧
        s'.limiter = (s.limiter.waitAll fs).2.1 ∧ s'.Orderly := by
  obtain ⟨past, s', hgoes, hlimiter, horderly, hlength⟩ :=
    h.completeEach (List.range s.limiter.inFlight.length) fs
  have hidle := s.limiter.isRunning_completeAll fs
  rw [← hlimiter] at hidle
  rw [BackupLimiter.failure_waitAll, BackupLimiter.limiter_waitAll, ← hlimiter, ← hlength]
  have hended : ∀ p ∈ s'.inFlight, p.2.isRunning = false :=
    fun p hp => hidle p.2 (List.mem_map_of_mem hp)
  have hresult : s'.limiter.inFlight.findSome? Backup.failure? =
      s'.inFlight.findSome? fun p => p.2.failure? := List.findSome?_map
  refine ⟨past, { s' with inFlight := [], askers := s'.askers ++ [s'.inFlight] }, ?_, rfl, ?_⟩
  · rw [hresult]
    exact .step (.step hgoes .asked) (.answered List.getElem?_concat_length hended)
  · refine { horderly with
      numbered := List.nodup_nil, older := nofun, writing := nofun, slots := fun hslots => ?_ }
    obtain ⟨p, hp, hrunning⟩ := horderly.slots hslots
    rw [hended p hp] at hrunning
    cases hrunning

/-- A backup that starts by `BackupLimiter.start?` because a slot is free is one event, and the
writers stay `Orderly`. -/
theorem start_free (h : s.Orderly) {target : Path} {entries : List Entry} {l : BackupLimiter}
    (hstart : s.limiter.start? target entries = some l) :
    ∃ s', s.Step (.started target entries) s' ∧ s'.limiter = l ∧ s'.Orderly := by
  refine ⟨_, .started hstart, ?_, ?_⟩
  · exact Option.some.inj ((Step.started hstart).start?_limiter.symm.trans hstart)
  · refine ⟨?_, fun p hp => ?_, ?_, fun n hn => ?_, fun p hp hrunning => ?_, fun _ => ?_⟩
    · rw [List.map_append]
      refine nodup_append_singleton (h.numbered.sublist (List.filter_sublist.map _))
        (List.forall_mem_map.2 fun p hp => h.older p (List.mem_filter.1 hp).1)
    · rcases List.mem_append.1 hp with hp | hp
      · exact Nat.lt_succ_of_lt (h.older p (List.mem_filter.1 hp).1)
      · rw [List.mem_singleton.1 hp]
        exact Nat.lt_succ_self _
    · exact nodup_append_singleton h.single h.writing_older
    · rcases List.mem_append.1 hn with hn | hn
      · exact Nat.lt_succ_of_lt (h.writing_older n hn)
      · rw [List.mem_singleton.1 hn]
        exact Nat.lt_succ_self _
    · rcases List.mem_append.1 hp with hp | hp
      · exact List.mem_append_left _ (h.writing p (List.mem_filter.1 hp).1 hrunning)
      · rw [List.mem_singleton.1 hp]
        exact List.mem_append_right _ (List.mem_singleton.2 rfl)
    · exact ⟨_, List.mem_append_right _ (List.mem_singleton.2 rfl), rfl⟩

/-- Starting a backup at a single stroke by `BackupLimiter.start` is a row of events; the start is
the last of them. -/
theorem start (h : s.Orderly) (target : Path) (entries : List Entry) (fs : FileSystem) :
    ∃ past s', Goes s (.started target entries :: past) s' ∧
      s'.limiter = (s.limiter.start target entries fs).1 ∧ s'.Orderly := by
  cases hstart : s.limiter.start? target entries with
  | some l =>
    obtain ⟨s', hstep, hlimiter, horderly⟩ := h.start_free hstart
    rw [BackupLimiter.start_of_free hstart]
    exact ⟨[], s', .step (.refl s) hstep, hlimiter, horderly⟩
  | none =>
    have hslots := BackupLimiter.start?_eq_none.1 hstart
    obtain ⟨p, hp, hrunning⟩ := h.slots hslots
    obtain ⟨i, -, -, l, -, hnext, hwhole⟩ :=
      BackupLimiter.start_of_full hslots ⟨p.2, List.mem_map_of_mem hp, hrunning⟩ fs
    obtain ⟨past, s', hgoes, hlimiter, horderly, -⟩ := h.complete i fs
    rw [← hlimiter] at hnext
    obtain ⟨s'', hstep, hlimiter', horderly'⟩ := horderly.start_free hnext
    rw [hwhole]
    exact ⟨past, s'', .step hgoes hstep, hlimiter', horderly'⟩

end Orderly

end Writers

end KeyWatch
