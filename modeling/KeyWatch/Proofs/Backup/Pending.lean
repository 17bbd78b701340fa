import KeyWatch.Backup.Limiter
import KeyWatch.Proofs.Backup.Published

/-!
# Backups of a job, in flight and in place

A job has a place for its output and two for each of its backups (`Job.Site`): the backup's own and
the one beside it, at which it is written first. As long as all these places are free and different
(`Job.Site.Open`), backups do not disturb each other, nor the output, nor anything else in the file
system (`Job.Site.Publishes`).

So each snapshot that was taken is at every time either in flight as it was taken or in its file
(`Job.Site.Backs`). Completing a backup keeps that, whichever it is, and so does starting one, which
may have to wait for another to complete. When all were waited for, all are in their files, and
none has failed that had not before (`Job.Site.Backs.waitAll`).
-/

namespace KeyWatch

/-- No backup that is not forgotten has failed (`Backup.failure?`). -/
def BackupLimiter.Sound (l : BackupLimiter) : Prop := ∀ b ∈ l.inFlight, b.failure? = none

/-- A limiter of which a backup completes without a failure stays `Sound`. -/
theorem BackupLimiter.Sound.set {slots slots' : Semaphore} {inFlight : List Backup}
    (h : Sound ⟨slots, inFlight⟩) (i : Nat) : Sound ⟨slots', inFlight.set i (.complete none)⟩ := by
  intro b hb
  rcases List.mem_or_eq_of_mem_set hb with hold | rfl
  · exact h b hold
  · rfl

namespace Job

/-- Where the files of a job go: the paths of its output and of its numbered backups, how many
backups there are, and the places to which the paths, and those beside the backups (`besideOf`),
lead. -/
structure Site where
  outputPath : Path
  backupPath : Nat → Path
  count : Nat
  output : Location
  backup : Nat → Location
  beside : Nat → Location

namespace Site

/-- The numbers of the backups of a site, from 1 on (`count`). -/
def Numbers (s : Site) (n : Nat) : Prop := 1 ≤ n ∧ n ≤ s.count

/-- The places of a job's files: its output's, and two for each of the `Numbers`. -/
def Own (s : Site) (l : Location) : Prop :=
  l = s.output ∨ ∃ n, s.Numbers n ∧ (l = s.backup n ∨ l = s.beside n)

/-- All files of a job can be written: their paths offer free places (`FileSystem.Offers`), which
are all different. -/
structure Open (s : Site) (fs : FileSystem) : Prop where
  tidy : fs.Tidy
  output : fs.Offers s.outputPath s.output
  backup : ∀ n, s.Numbers n → fs.Offers (s.backupPath n) (s.backup n)
  beside : ∀ n, s.Numbers n → fs.Offers (besideOf (s.backupPath n)) (s.beside n)
  backup_ne_output : ∀ n, s.Numbers n → s.backup n ≠ s.output
  beside_ne_output : ∀ n, s.Numbers n → s.beside n ≠ s.output
  beside_ne_backup : ∀ m n, s.Numbers m → s.Numbers n → s.beside m ≠ s.backup n
  backup_inj : ∀ m n, s.Numbers m → s.Numbers n → s.backup m = s.backup n → m = n
  beside_inj : ∀ m n, s.Numbers m → s.Numbers n → s.beside m = s.beside n → m = n

variable {s : Site} {fs fs' fs'' : FileSystem}

/-- At the places of a job whose files can be written stands nothing or a file (`Own`). -/
theorem Open.free (h : s.Open fs) {l : Location} (hl : s.Own l) :
    fs.node? l = none ∨ ∃ n, fs.node? l = some (.file n) := by
  rcases hl with rfl | ⟨n, hn, rfl | rfl⟩
  · exact h.output.free
  · exact (h.backup n hn).free
  · exact (h.beside n hn).free

/-- The files can be written as long as they are where they belong and nothing else has moved
(`Open`). -/
theorem Open.congr (h : s.Open fs) (htidy : fs'.Tidy) (hworking : fs'.working = fs.working)
    (helsewhere : ∀ l, ¬s.Own l → fs'.node? l = fs.node? l)
    (hfree : ∀ l, s.Own l → fs'.node? l = none ∨ ∃ n, fs'.node? l = some (.file n)) :
    s.Open fs' := by
  have hways : fs.SameWays fs' := by
    refine ⟨hworking, fun l => ?_⟩
    by_cases hl : s.Own l
    · rw [FileSystem.way?_of_free (h.free hl), FileSystem.way?_of_free (hfree l hl)]
    · rw [helsewhere l hl]
  exact {
    h with
    tidy := htidy
    output := h.output.congr hways (hfree _ (.inl rfl))
    backup := fun n hn => (h.backup n hn).congr hways (hfree _ (.inr ⟨n, hn, .inl rfl⟩))
    beside := fun n hn => (h.beside n hn).congr hways (hfree _ (.inr ⟨n, hn, .inr rfl⟩)) }

/-- The files can still be written when something was written (`FileSystem.WritesOnly`). -/
theorem Open.writesOnly {written : Nat → Prop} (h : s.Open fs) (hw : fs.WritesOnly written fs') :
    s.Open fs' :=
  h.congr (hw.tidy h.tidy) hw.working (fun l _ => hw.node? l) fun l hl => by
    rw [hw.node?]
    exact h.free hl

/-- The files can still be written when the output was made (`FileSystem.Made`). -/
theorem Open.made {n : Nat} (h : s.Open fs) (hm : FileSystem.Made fs fs' s.output n) :
    s.Open fs' := by
  refine h.congr hm.tidy hm.working (fun l hl => hm.elsewhere l ?_) fun l hl => ?_
  · rintro rfl
    exact hl (.inl rfl)
  · by_cases houtput : l = s.output
    · exact .inr ⟨n, houtput ▸ hm.here⟩
    · rw [hm.elsewhere l houtput]
      exact h.free hl

/-! ## Publishing backups -/

/-- Backups of a job were published, one after another (`FileSystem.Published`). -/
inductive Publishes (s : Site) : FileSystem → FileSystem → Prop
  | refl (fs : FileSystem) : Publishes s fs fs
  | step {fs fs' fs'' : FileSystem} {n file : Nat} {b : Bytes} (number : s.Numbers n)
      (published : fs.Published fs' (s.beside n) (s.backup n) file b)
      (rest : Publishes s fs' fs'') : Publishes s fs fs''

/-- Backups that were published behind others were published in one row with them (`Publishes`). -/
theorem Publishes.trans (h : s.Publishes fs fs') (h' : s.Publishes fs' fs'') :
    s.Publishes fs fs'' := by
  induction h with
  | refl => exact h'
  | step hn hpublished _ ih => exact .step hn hpublished (ih h')

variable {n file : Nat} {b : Bytes}

/-- The files can still be written when a backup was published (`FileSystem.Published`). -/
theorem Open.published (h : s.Open fs) (hn : s.Numbers n)
    (hp : fs.Published fs' (s.beside n) (s.backup n) file b) : s.Open fs' := by
  refine h.congr hp.tidy hp.working (fun l hl => ?_) fun l hl => ?_
  · refine hp.elsewhere l ?_ ?_
    · rintro rfl
      exact hl (.inr ⟨n, hn, .inr rfl⟩)
    · rintro rfl
      exact hl (.inr ⟨n, hn, .inl rfl⟩)
  · by_cases hbackup : l = s.backup n
    · exact .inr ⟨file, hbackup ▸ hp.taken⟩
    · by_cases hbeside : l = s.beside n
      · exact .inl (hbeside ▸ hp.left)
      · rw [hp.elsewhere l hbeside hbackup]
        exact h.free hl

/-- A file at another place than those of a backup is not touched when it is published
(`FileSystem.Published`). -/
theorem Open.content_published (h : s.Open fs)
    (hp : fs.Published fs' (s.beside n) (s.backup n) file b) {l : Location} {m : Nat}
    (hl : fs.node? l = some (.file m)) (hbeside : l ≠ s.beside n) (hbackup : l ≠ s.backup n) :
    fs'.node? l = some (.file m) ∧ fs'.content m = fs.content m := by
  refine ⟨by rw [hp.elsewhere l hbeside hbackup, hl], hp.contents m ?_⟩
  rintro rfl
  rcases hp.origin with horigin | hnew
  · exact hbeside (h.tidy.single _ _ m hl horigin)
  · exact absurd (h.tidy.numbered l m hl) (Nat.not_lt.2 hnew)

namespace Publishes

/-- The files can still be written when backups were published (`Publishes`). -/
theorem isOpen (hp : s.Publishes fs fs') (h : s.Open fs) : s.Open fs' := by
  induction hp with
  | refl => exact h
  | step hn hpublished _ ih => exact ih (h.published hn hpublished)

/-- Nothing moves at places that are not the job's when backups are published (`Own`). -/
theorem elsewhere (hp : s.Publishes fs fs') {l : Location} (hl : ¬s.Own l) :
    fs'.node? l = fs.node? l := by
  induction hp with
  | refl => rfl
  | @step _ _ _ n _ _ hn hpublished _ ih =>
    rw [ih]
    refine hpublished.elsewhere l ?_ ?_
    · rintro rfl
      exact hl (.inr ⟨n, hn, .inr rfl⟩)
    · rintro rfl
      exact hl (.inr ⟨n, hn, .inl rfl⟩)

/-- The output stays as it is when backups are published (`Publishes`). -/
theorem output (hp : s.Publishes fs fs') (h : s.Open fs) {m : Nat}
    (hm : fs.node? s.output = some (.file m)) :
    fs'.node? s.output = some (.file m) ∧ fs'.content m = fs.content m := by
  induction hp with
  | refl => exact ⟨hm, rfl⟩
  | @step _ _ _ n _ _ hn hpublished _ ih =>
    obtain ⟨hm', hcontent⟩ := h.content_published hpublished hm (h.beside_ne_output n hn).symm
      (h.backup_ne_output n hn).symm
    obtain ⟨hend, hcontent'⟩ := ih (h.published hn hpublished) hm'
    exact ⟨hend, hcontent'.trans hcontent⟩

end Publishes

/-- Some files are there and are not the job's (`Own`). -/
def Spares (s : Site) (watched : Nat → Prop) (fs : FileSystem) : Prop :=
  ∀ m, watched m → m < fs.contents.length ∧ ∀ l, s.Own l → fs.node? l ≠ some (.file m)

/-- Files that are not the job's stay so whatever is written (`FileSystem.WritesOnly`). -/
theorem Spares.writesOnly {watched written : Nat → Prop} (h : s.Spares watched fs)
    (hw : fs.WritesOnly written fs') : s.Spares watched fs' := by
  refine fun m hm => ⟨?_, fun l hl => ?_⟩
  · rw [hw.length]
    exact (h m hm).1
  · rw [hw.node?]
    exact (h m hm).2 l hl

/-- Files that are not the job's stay so when the output was made (`FileSystem.Made`). -/
theorem Spares.made {watched : Nat → Prop} {n : Nat} (h : s.Spares watched fs)
    (hm : FileSystem.Made fs fs' s.output n) : s.Spares watched fs' := by
  intro m hwatched
  obtain ⟨hlt, hspared⟩ := h m hwatched
  refine ⟨Nat.lt_of_lt_of_le hlt hm.length, fun l hl hfile => ?_⟩
  by_cases houtput : l = s.output
  · rw [houtput, hm.here] at hfile
    cases hfile
    rcases hm.origin with horigin | hnew
    · exact hspared _ (.inl rfl) horigin
    · exact absurd hlt (Nat.not_lt.2 hnew)
  · rw [hm.elsewhere l houtput] at hfile
    exact hspared l hl hfile

/-- Files that are not the job's stay so when backups were published (`Publishes`). -/
theorem Spares.publishes {watched : Nat → Prop} (h : s.Spares watched fs)
    (hp : s.Publishes fs fs') : s.Spares watched fs' := by
  induction hp with
  | refl => exact h
  | @step fs fs' _ n file _ hn hpublished _ ih =>
    refine ih fun m hm => ?_
    obtain ⟨hlt, hspared⟩ := h m hm
    refine ⟨Nat.lt_of_lt_of_le hlt hpublished.length, fun l hl hfile => ?_⟩
    by_cases hbackup : l = s.backup n
    · rw [hbackup, hpublished.taken] at hfile
      cases hfile
      rcases hpublished.origin with horigin | hnew
      · exact hspared _ (.inr ⟨n, hn, .inr rfl⟩) horigin
      · exact absurd hlt (Nat.not_lt.2 hnew)
    · by_cases hbeside : l = s.beside n
      · rw [hbeside, hpublished.left] at hfile
        cases hfile
      · rw [hpublished.elsewhere l hbeside hbackup] at hfile
        exact hspared l hl hfile

/-! ## Backups in flight -/

/-- The backup of a number holds the lines of some entries (`formatShow`), and nothing is left
beside it. -/
def Stands (s : Site) (n : Nat) (entries : List Entry) (fs : FileSystem) : Prop :=
  fs.node? (s.beside n) = none ∧ ∃ m, fs.node? (s.backup n) = some (.file m) ∧
    fs.content m = Utf8.encode (formatShow entries)

/-- A backup that is published leaves those of other numbers as they stand (`Stands`). -/
theorem Stands.published {k : Nat} {entries : List Entry} (h : s.Stands k entries fs)
    (hs : s.Open fs) (hk : s.Numbers k) (hn : s.Numbers n) (hne : k ≠ n)
    (hp : fs.Published fs' (s.beside n) (s.backup n) file b) : s.Stands k entries fs' := by
  obtain ⟨hbeside, m, hbackup, hcontent⟩ := h
  obtain ⟨hbackup', hcontent'⟩ := hs.content_published hp hbackup
    (hs.beside_ne_backup n k hn hk).symm fun he => hne (hs.backup_inj k n hk hn he)
  refine ⟨?_, m, hbackup', hcontent'.trans hcontent⟩
  rw [hp.elsewhere (s.beside k) (fun he => hne (hs.beside_inj k n hk hn he))
    (hs.beside_ne_backup k n hk hn), hbeside]

/-- The limiter holds on to the snapshots that were taken, each under its number: those that are
running are among them, and those that are not are in their files (`Stands`). A slot is free, or
else some backup is running. -/
structure Backs (s : Site) (taken : List (List Entry)) (l : BackupLimiter) (fs : FileSystem) :
    Prop where
  bound : taken.length ≤ s.count
  known : ∀ target entries, .running target entries ∈ l.inFlight →
    ∃ n, taken[n]? = some entries ∧ target = s.backupPath (n + 1)
  kept : ∀ n entries, taken[n]? = some entries →
    .running (s.backupPath (n + 1)) entries ∈ l.inFlight ∨ s.Stands (n + 1) entries fs
  slots : l.slots.permits = 0 → ∃ b ∈ l.inFlight, b.isRunning = true

namespace Backs

variable {taken : List (List Entry)} {l : BackupLimiter}

/-- A snapshot that was taken has one of the `Numbers` of the site. -/
theorem numbers (h : s.Backs taken l fs) {k : Nat} {entries : List Entry}
    (hk : taken[k]? = some entries) : s.Numbers (k + 1) := by
  obtain ⟨hlt, -⟩ := List.getElem?_eq_some_iff.1 hk
  exact ⟨Nat.le_add_left 1 k, Nat.le_trans hlt h.bound⟩

/-- What is written into files that are no backups leaves the snapshots held on to (`Backs`). -/
theorem writesOnly {written : Nat → Prop} (h : s.Backs taken l fs) (hw : fs.WritesOnly written fs')
    (hspared : ∀ n m, s.Numbers n → written m → fs.node? (s.backup n) ≠ some (.file m)) :
    s.Backs taken l fs' where
  bound := h.bound
  known := h.known
  kept n entries hn := by
    refine (h.kept n entries hn).imp_right ?_
    rintro ⟨hbeside, m, hbackup, hcontent⟩
    refine ⟨by rw [hw.node?, hbeside], m, by rw [hw.node?, hbackup], ?_⟩
    rw [hw.contents m fun hm => hspared _ m (h.numbers hn) hm hbackup, hcontent]
  slots := h.slots

/-- A running backup that is completed by `BackupLimiter.complete` is published without a failure,
and the snapshots are still held on to. -/
theorem complete_running (h : s.Backs taken l fs) (hs : s.Open fs) {i : Nat} {target : Path}
    {entries : List Entry} (hi : l.inFlight[i]? = some (.running target entries)) :
    ∃ fs', l.complete i fs = (⟨l.slots.release, l.inFlight.set i (.complete none)⟩, fs') ∧
      s.Backs taken ⟨l.slots.release, l.inFlight.set i (.complete none)⟩ fs' ∧
      s.Publishes fs fs' := by
  obtain ⟨n, hn, rfl⟩ := h.known target entries (List.mem_of_getElem? hi)
  have hnumber := h.numbers hn
  obtain ⟨file, fs', hwrite, hpublished⟩ := writeSnapshot_published (hs.beside _ hnumber)
    (hs.backup _ hnumber) (hs.beside_ne_backup _ _ hnumber hnumber) hs.tidy entries
  refine ⟨fs', ?_, ?_, .step hnumber hpublished (.refl fs')⟩
  · rw [BackupLimiter.complete_of_running hi, hwrite]
  · refine ⟨h.bound, fun target others hb => ?_, fun k others hk => ?_, nofun⟩
    · rcases List.mem_or_eq_of_mem_set hb with hold | hnew
      · exact h.known target others hold
      · cases hnew
    · by_cases hkn : k = n
      · subst hkn
        obtain rfl : entries = others := Option.some.inj (hn.symm.trans hk)
        exact .inr ⟨hpublished.left, file, hpublished.taken, hpublished.content⟩
      · have hne : k + 1 ≠ n + 1 := fun he => hkn (Nat.succ.inj he)
        rcases h.kept k others hk with hrunning | hstands
        · -- the backup of another number has another path, so it is not the one that completes
          refine .inl (List.mem_iff_getElem?.2 ?_)
          obtain ⟨j, hj⟩ := List.mem_iff_getElem?.1 hrunning
          refine ⟨j, ?_⟩
          rw [List.getElem?_set_ne, hj]
          rintro rfl
          rw [hi] at hj
          obtain ⟨hpaths, -⟩ := Backup.running.inj (Option.some.inj hj)
          have hplace := hs.backup (k + 1) (h.numbers hk)
          rw [← hpaths] at hplace
          exact hne (hs.backup_inj _ _ (h.numbers hk) hnumber
            (hplace.unique (hs.backup _ hnumber)))
        · exact .inr (hstands.published hs (h.numbers hk) hnumber hne hpublished)

/-- Whichever backup `BackupLimiter.complete` is to complete, the snapshots are still held on to. It
does not fail. -/
theorem complete (h : s.Backs taken l fs) (hs : s.Open fs) (i : Nat) :
    s.Backs taken (l.complete i fs).1 (l.complete i fs).2 ∧ s.Publishes fs (l.complete i fs).2 ∧
      (l.Sound → (l.complete i fs).1.Sound) := by
  by_cases hrunning : ∃ target entries, l.inFlight[i]? = some (.running target entries)
  · obtain ⟨target, entries, hi⟩ := hrunning
    obtain ⟨fs', hcomplete, hbacks, hpublishes⟩ := h.complete_running hs hi
    rw [hcomplete]
    exact ⟨hbacks, hpublishes, fun hsound => hsound.set i⟩
  · have hidle : ∀ b ∈ l.inFlight[i]?, b.isRunning = false := by
      intro b hb
      cases b with
      | complete failure => rfl
      | running target entries => exact absurd ⟨target, entries, hb⟩ hrunning
    rw [BackupLimiter.complete_of_idle hidle]
    exact ⟨h, .refl fs, id⟩

/-- Completing backups one after another by `BackupLimiter.completeEach` keeps the snapshots, and
none fails. -/
theorem completeEach (is : List Nat) (h : s.Backs taken l fs) (hs : s.Open fs) :
    s.Backs taken (BackupLimiter.completeEach is l fs).1 (BackupLimiter.completeEach is l fs).2 ∧
      s.Publishes fs (BackupLimiter.completeEach is l fs).2 ∧
      (l.Sound → (BackupLimiter.completeEach is l fs).1.Sound) := by
  induction is generalizing l fs with
  | nil => exact ⟨h, .refl fs, id⟩
  | cons i rest ih =>
    obtain ⟨hbacks, hpublishes, hsound⟩ := h.complete hs i
    obtain ⟨hbacks', hpublishes', hsound'⟩ := ih hbacks (hpublishes.isOpen hs)
    exact ⟨hbacks', hpublishes.trans hpublishes', fun hl => hsound' (hsound hl)⟩

/-- When all backups were waited for by `BackupLimiter.waitAll`, every snapshot that was taken is in
its file, and none has failed unless it had before. -/
theorem waitAll (h : s.Backs taken l fs) (hs : s.Open fs) :
    ∃ failure l' fs', l.waitAll fs = (failure, l', fs') ∧ (l.Sound → failure = none) ∧
      s.Publishes fs fs' ∧
      ∀ n entries, taken[n]? = some entries → s.Stands (n + 1) entries fs' := by
  have heach := h.completeEach (List.range l.inFlight.length) hs
  have hdone := l.isRunning_completeAll fs
  cases hall : BackupLimiter.completeEach (List.range l.inFlight.length) l fs with
  | mk l' fs' =>
    rw [hall] at heach hdone
    obtain ⟨hbacks, hpublishes, hsound⟩ := heach
    refine ⟨_, { l' with inFlight := [] }, fs', by rw [BackupLimiter.waitAll, hall], fun hl => ?_,
      hpublishes, fun n entries hn => ?_⟩
    · exact List.findSome?_eq_none_iff.2 (hsound hl)
    · rcases hbacks.kept n entries hn with hrunning | hstands
      · cases hdone _ hrunning
      · exact hstands

/-- Where a slot is free, the snapshot that is taken next is in flight at once
(`BackupLimiter.start?`). -/
theorem start_free (h : s.Backs taken l fs) (hbound : taken.length < s.count)
    {entries : List Entry} {l' : BackupLimiter}
    (hstart : l.start? (s.backupPath (taken.length + 1)) entries = some l') :
    s.Backs (taken ++ [entries]) l' fs ∧ l'.Sound := by
  obtain ⟨slots, -, rfl⟩ := Option.map_eq_some_iff.1 hstart
  have hnew : (taken ++ [entries])[taken.length]? = some entries := List.getElem?_concat_length
  refine ⟨⟨?_, fun target others hb => ?_, fun n others hn => ?_, fun _ => ?_⟩, fun b hb => ?_⟩
  · rw [List.length_append]
    exact hbound
  · rcases List.mem_append.1 hb with hb | hb
    · obtain ⟨n, hn, rfl⟩ := h.known target others (List.mem_filter.1 hb).1
      obtain ⟨hlt, -⟩ := List.getElem?_eq_some_iff.1 hn
      exact ⟨n, by rw [List.getElem?_append_left hlt, hn], rfl⟩
    · cases List.mem_singleton.1 hb
      exact ⟨taken.length, hnew, rfl⟩
  · by_cases hlast : n = taken.length
    · subst hlast
      obtain rfl : entries = others := Option.some.inj (hnew.symm.trans hn)
      exact .inl (List.mem_append_right _ (List.mem_singleton.2 rfl))
    · have hlt : n < taken.length := by
        obtain ⟨hlt, -⟩ := List.getElem?_eq_some_iff.1 hn
        rw [List.length_append, List.length_singleton] at hlt
        omega
      rw [List.getElem?_append_left hlt] at hn
      rcases h.kept n others hn with hrunning | hstands
      · exact .inl (List.mem_append_left _ (List.mem_filter.2 ⟨hrunning, rfl⟩))
      · exact .inr hstands
  · exact ⟨_, List.mem_append_right _ (List.mem_singleton.2 rfl), rfl⟩
  · -- those that are complete are forgotten, so all are running
    have hrunning : b.isRunning = true := by
      rcases List.mem_append.1 hb with hb | hb
      · exact (List.mem_filter.1 hb).2
      · rw [List.mem_singleton.1 hb]
        rfl
    cases b with
    | running => rfl
    | complete => cases hrunning

/-- Starting a backup by `BackupLimiter.start` takes the snapshot as it is, though another backup
may have to complete. -/
theorem start (h : s.Backs taken l fs) (hs : s.Open fs) (hbound : taken.length < s.count)
    (entries : List Entry) :
    ∃ l' fs', l.start (s.backupPath (taken.length + 1)) entries fs = (l', fs') ∧
      s.Backs (taken ++ [entries]) l' fs' ∧ l'.Sound ∧ s.Publishes fs fs' := by
  cases hstart : l.start? (s.backupPath (taken.length + 1)) entries with
  | some l' =>
    obtain ⟨hbacks, hsound⟩ := h.start_free hbound hstart
    exact ⟨l', fs, BackupLimiter.start_of_free hstart fs, hbacks, hsound, .refl fs⟩
  | none =>
    have hpermits := BackupLimiter.start?_eq_none.1 hstart
    obtain ⟨i, target, others, l', hi, hnext, hwhole⟩ :=
      BackupLimiter.start_of_full hpermits (h.slots hpermits) fs
    obtain ⟨fs', hcomplete, hbacks, hpublishes⟩ := h.complete_running hs hi
    rw [hcomplete] at hnext hwhole
    obtain ⟨hstarted, hsound⟩ := hbacks.start_free hbound hnext
    exact ⟨l', fs', hwhole, hstarted, hsound, hpublishes⟩

end Backs

end Site

end Job

end KeyWatch
