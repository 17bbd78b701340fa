import KeyWatch.Proofs.Job.Paths
import KeyWatch.Proofs.Job.Underway

/-!
# What a job leaves behind

A job whose files can be written (`Engine.Fits`) leaves behind what its commands print and copy: its
output is all that they print, in order, and each of its backups is what a dump would have printed
in its place (`runJob_results`).

The files have their places (`Job.siteOf`), those of the backups in flight before those of the job's
own, and the paths lead to them as long as the job is underway. It is so from when its output is
made (`Job.underway_of_fits`) until all its lines are executed (`Job.exists_runJob`), and when the
backups were waited for, what it has copied is in their files.
-/

namespace KeyWatch

/-! ## Backups of others in flight -/

/-- The target and the entries of a backup that is running, and nothing of one that is complete. -/
def Backup.running? : Backup → Option (Path × List Entry)
  | running target entries => some (target, entries)
  | complete _ => none

/-- The targets and entries of the backups that are running (`Backup.running?`). -/
def BackupLimiter.running (l : BackupLimiter) : List (Path × List Entry) :=
  l.inFlight.filterMap Backup.running?

/-- The targets of the backups that are `running`. -/
def BackupLimiter.targets (l : BackupLimiter) : List Path := l.running.map Prod.fst

/-- What is `running` is in flight as a running backup. -/
theorem BackupLimiter.mem_running {l : BackupLimiter} {target : Path} {entries : List Entry} :
    (target, entries) ∈ l.running ↔ .running target entries ∈ l.inFlight := by
  refine List.mem_filterMap.trans ⟨?_, fun h => ⟨_, h, rfl⟩⟩
  rintro ⟨b, hb, hrunning⟩
  cases b with
  | running =>
    cases hrunning
    exact hb
  | complete => cases hrunning

namespace Job

namespace Site

variable {fs : FileSystem} {out : Path} {targets : List Path}

/-- The site of an output and of backups with some targets, at the places to which their paths lead
(`FileSystem.locate`). -/
def ofPaths (fs : FileSystem) (out : Path) (targets : List Path) : Site where
  outputPath := out
  backupPath n := targets.getD (n - 1) out
  count := targets.length
  output := fs.locate out
  backup n := fs.locate (targets.getD (n - 1) out)
  beside n := fs.locate (besideOf (targets.getD (n - 1) out))

/-- The paths and places of a number are those of its target (`ofPaths`). -/
theorem ofPaths_succ (fs : FileSystem) (out : Path) {n : Nat} {target : Path}
    (h : targets[n]? = some target) :
    (ofPaths fs out targets).Numbers (n + 1) ∧
      (ofPaths fs out targets).backupPath (n + 1) = target ∧
      (ofPaths fs out targets).backup (n + 1) = fs.locate target ∧
      (ofPaths fs out targets).beside (n + 1) = fs.locate (besideOf target) := by
  have htarget : targets.getD (n + 1 - 1) out = target := by
    rw [Nat.add_sub_cancel, List.getD_eq_getElem?_getD, h]
    rfl
  refine ⟨⟨Nat.succ_pos n, (List.getElem?_eq_some_iff.1 h).1⟩, htarget, ?_, ?_⟩
  · rw [← htarget]
    rfl
  · rw [← htarget]
    rfl

/-- Every number of `ofPaths` is that of a target. -/
theorem exists_target {n : Nat} (h : (ofPaths fs out targets).Numbers n) :
    ∃ i target, n = i + 1 ∧ targets[i]? = some target := by
  obtain ⟨hpos, hle⟩ := h
  cases n with
  | zero => cases hpos
  | succ i => exact ⟨i, _, rfl, List.getElem?_eq_getElem hle⟩

/-- The places of the files of `ofPaths` are those to which the paths lead, with those beside the
targets (`written`). -/
theorem own_ofPaths {l : Location} :
    (ofPaths fs out targets).Own l ↔ l ∈ (out :: written targets).map fs.locate := by
  simp only [List.map_cons, written, List.map_append, List.mem_cons, List.mem_append]
  refine or_congr Iff.rfl ⟨?_, ?_⟩
  · rintro ⟨n, hn, hl⟩
    obtain ⟨i, target, rfl, hi⟩ := exists_target hn
    obtain ⟨-, -, hbackup, hbeside⟩ := ofPaths_succ fs out hi
    have hmem := List.mem_of_getElem? hi
    rcases hl with rfl | rfl
    · rw [hbackup]
      exact .inl (List.mem_map_of_mem hmem)
    · rw [hbeside]
      exact .inr (List.mem_map_of_mem (List.mem_map_of_mem hmem))
  · rintro (hl | hl)
    · obtain ⟨target, hmem, rfl⟩ := List.mem_map.1 hl
      obtain ⟨i, hi⟩ := List.mem_iff_getElem?.1 hmem
      obtain ⟨hnumber, -, hbackup, -⟩ := ofPaths_succ fs out hi
      exact ⟨i + 1, hnumber, .inl hbackup.symm⟩
    · obtain ⟨beside, hmem, rfl⟩ := List.mem_map.1 hl
      obtain ⟨target, htarget, rfl⟩ := List.mem_map.1 hmem
      obtain ⟨i, hi⟩ := List.mem_iff_getElem?.1 htarget
      obtain ⟨hnumber, -, -, hbeside⟩ := ofPaths_succ fs out hi
      exact ⟨i + 1, hnumber, .inr hbeside.symm⟩

/-- Targets whose places are different have different numbers (`List.Nodup`). -/
theorem number_inj {f : Path → Location} (hnodup : (targets.map f).Nodup) {i j : Nat}
    {target other : Path} (hi : targets[i]? = some target) (hj : targets[j]? = some other)
    (heq : f target = f other) : i = j := by
  have hlt : i < (targets.map f).length := by
    rw [List.length_map]
    exact (List.getElem?_eq_some_iff.1 hi).1
  refine (List.getElem?_inj hlt hnodup).1 ?_
  simp only [List.getElem?_map, hi, hj, Option.map_some, heq]

/-- If all paths lead to free places, and to different ones, the files can be written
(`Site.Open`). -/
theorem isOpen_ofPaths (htidy : fs.Tidy) (hfree : ∀ q ∈ out :: written targets, fs.IsFree q)
    (hnodup : ((out :: written targets).map fs.locate).Nodup) :
    (ofPaths fs out targets).Open fs := by
  rw [List.map_cons, written, List.map_append, List.map_map, List.nodup_cons,
    List.nodup_append] at hnodup
  obtain ⟨hout, hbackups, hbesides, hapart⟩ := hnodup
  rw [List.mem_append] at hout
  refine {
    tidy := htidy
    output := hfree out List.mem_cons_self
    backup := fun n hn => ?_
    beside := fun n hn => ?_
    backup_ne_output := fun n hn heq => hout (.inl ?_)
    beside_ne_output := fun n hn heq => hout (.inr ?_)
    beside_ne_backup := fun m n hm hn heq => ?_
    backup_inj := fun m n hm hn heq => ?_
    beside_inj := fun m n hm hn heq => ?_ }
  · obtain ⟨i, target, rfl, hi⟩ := exists_target hn
    obtain ⟨-, hpath, hplace, -⟩ := ofPaths_succ fs out hi
    rw [hpath, hplace]
    exact hfree _ (List.mem_cons_of_mem _ (List.mem_append_left _ (List.mem_of_getElem? hi)))
  · obtain ⟨i, target, rfl, hi⟩ := exists_target hn
    obtain ⟨-, hpath, -, hplace⟩ := ofPaths_succ fs out hi
    rw [hpath, hplace]
    exact hfree _ (List.mem_cons_of_mem _ (List.mem_append_right _
      (List.mem_map_of_mem (List.mem_of_getElem? hi))))
  · obtain ⟨i, target, rfl, hi⟩ := exists_target hn
    rw [(ofPaths_succ fs out hi).2.2.1] at heq
    exact List.mem_map.2 ⟨target, List.mem_of_getElem? hi, heq⟩
  · obtain ⟨i, target, rfl, hi⟩ := exists_target hn
    rw [(ofPaths_succ fs out hi).2.2.2] at heq
    exact List.mem_map.2 ⟨target, List.mem_of_getElem? hi, heq⟩
  · obtain ⟨i, target, rfl, hi⟩ := exists_target hm
    obtain ⟨j, other, rfl, hj⟩ := exists_target hn
    rw [(ofPaths_succ fs out hi).2.2.2, (ofPaths_succ fs out hj).2.2.1] at heq
    exact hapart _ (List.mem_map_of_mem (List.mem_of_getElem? hj)) _
      (List.mem_map.2 ⟨target, List.mem_of_getElem? hi, rfl⟩) heq.symm
  · obtain ⟨i, target, rfl, hi⟩ := exists_target hm
    obtain ⟨j, other, rfl, hj⟩ := exists_target hn
    rw [(ofPaths_succ fs out hi).2.2.1, (ofPaths_succ fs out hj).2.2.1] at heq
    rw [number_inj hbackups hi hj heq]
  · obtain ⟨i, target, rfl, hi⟩ := exists_target hm
    obtain ⟨j, other, rfl, hj⟩ := exists_target hn
    rw [(ofPaths_succ fs out hi).2.2.2, (ofPaths_succ fs out hj).2.2.2] at heq
    rw [number_inj hbesides hi hj heq]

variable {taken : List (List Entry)} {l : BackupLimiter} {s : Site}

/-- A limiter that has only backups in flight whose numbers are known holds on to their snapshots
(`Site.Backs`). -/
theorem backs_running (hpaths : ∀ n job, l.running[n]? = some job → s.backupPath (n + 1) = job.1)
    (hbound : l.running.length ≤ s.count)
    (hslots : l.slots.permits = 0 → ∃ b ∈ l.inFlight, b.isRunning = true) :
    s.Backs (l.running.map Prod.snd) l fs where
  bound := by rwa [List.length_map]
  known target entries hb := by
    obtain ⟨n, hn⟩ := List.mem_iff_getElem?.1 (BackupLimiter.mem_running.2 hb)
    refine ⟨n, ?_, (hpaths n _ hn).symm⟩
    rw [List.getElem?_map, hn]
    rfl
  kept n entries hn := by
    rw [List.getElem?_map] at hn
    obtain ⟨⟨target, others⟩, hjob, rfl⟩ := Option.map_eq_some_iff.1 hn
    rw [hpaths n _ hjob]
    exact .inl (BackupLimiter.mem_running.1 (List.mem_of_getElem? hjob))
  slots := hslots

end Site

end Job

/-! ## Running a job -/

namespace Engine

/-- Files can be written at some paths, whenever the backups in flight are completed: each path
leads to a free place (`FileSystem.IsFree`), as do those of the backups in flight, and these places
are others and all different. No channel writes into a file there, and where no slot is free some
backup is running. -/
structure Fits (e : Engine) (paths : List Path) : Prop where
  tidy : e.files.Tidy
  free : ∀ q ∈ paths ++ Job.written e.backups.targets, e.files.IsFree q
  different : ((Job.written e.backups.targets).map e.files.locate).Nodup
  apart : ∀ q ∈ paths, ∀ q' ∈ Job.written e.backups.targets, e.files.locate q ≠ e.files.locate q'
  unwatched : ∀ n, e.channels.WritesTo n → n < e.files.contents.length ∧
    ∀ q ∈ paths ++ Job.written e.backups.targets,
      e.files.node? (e.files.locate q) ≠ some (.file n)
  slots : e.backups.slots.permits = 0 → ∃ b ∈ e.backups.inFlight, b.isRunning = true

end Engine

namespace Job

/-- The paths at which a job with some backups writes: its output's, and those of the backups
(`written`). -/
def paths (p : Path) (stem : Bytes) (count : Nat) : List Path :=
  p.withExtension "out" :: written (backupPaths (directoryOf p) (Utf8.lossy stem) count)

/-- The site of a job, with the backups in flight before its own (`Site.ofPaths`). -/
def siteOf (e : Engine) (p : Path) (stem : Bytes) (count : Nat) : Site :=
  .ofPaths e.files (p.withExtension "out")
    (e.backups.targets ++ backupPaths (directoryOf p) (Utf8.lossy stem) count)

variable {e : Engine} {p : Path} {stem : Bytes} {count : Nat}

/-- The paths of an output and of two rows of backups may be put in another order (`written`). -/
theorem perm_paths (out : Path) (others own : List Path) :
    List.Perm (out :: written (others ++ own)) (out :: written own ++ written others) := by
  refine List.perm_iff_count.2 fun q => ?_
  simp only [written, List.map_append, List.cons_append, List.count_cons, List.count_append]
  omega

/-- The places of a job's site are those of its own files and of the backups in flight
(`siteOf`). -/
theorem own_siteOf {l : Location} : (siteOf e p stem count).Own l ↔
    l ∈ (paths p stem count ++ written e.backups.targets).map e.files.locate := by
  rw [siteOf, Site.own_ofPaths]
  exact ((perm_paths _ _ _).map e.files.locate).mem_iff

/-- A job that `Fits` has a site of which all files can be written: its own places are all different
(`nodup_locate`), and apart from those in flight. -/
theorem isOpen_siteOf (h : e.Fits (paths p stem count)) :
    (siteOf e p stem count).Open e.files := by
  have hperm := perm_paths (p.withExtension "out") e.backups.targets
    (backupPaths (directoryOf p) (Utf8.lossy stem) count)
  have hown := nodup_locate h.tidy fun q hq => h.free q (List.mem_append_left _ hq)
  refine Site.isOpen_ofPaths h.tidy (fun q hq => h.free q (hperm.mem_iff.1 hq)) ?_
  rw [(hperm.map e.files.locate).nodup_iff, List.map_append, List.nodup_append]
  refine ⟨hown, h.different, fun l hl l' hl' => ?_⟩
  obtain ⟨q, hq, rfl⟩ := List.mem_map.1 hl
  obtain ⟨q', hq', rfl⟩ := List.mem_map.1 hl'
  exact h.apart q hq q' hq'

/-- A job that `Fits` has a site of which no file is one that a channel writes into. -/
theorem spares_siteOf (h : e.Fits (paths p stem count)) :
    (siteOf e p stem count).Spares e.channels.WritesTo e.files := by
  intro n hn
  obtain ⟨hlt, hunwatched⟩ := h.unwatched n hn
  refine ⟨hlt, fun l hl => ?_⟩
  obtain ⟨q, hq, rfl⟩ := List.mem_map.1 (own_siteOf.1 hl)
  exact hunwatched q hq

/-- Before a job has begun, the snapshots in flight are held on to (`Site.Backs`). -/
theorem backs_siteOf (h : e.Fits (paths p stem count)) (fs : FileSystem) :
    (siteOf e p stem count).Backs (e.backups.running.map Prod.snd) e.backups fs := by
  refine Site.backs_running (fun n job hjob => ?_) ?_ h.slots
  · have htarget : (e.backups.targets ++
        backupPaths (directoryOf p) (Utf8.lossy stem) count)[n]? = some job.1 := by
      have hlt : n < e.backups.targets.length := by
        rw [BackupLimiter.targets, List.length_map]
        exact (List.getElem?_eq_some_iff.1 hjob).1
      rw [List.getElem?_append_left hlt, BackupLimiter.targets, List.getElem?_map, hjob]
      rfl
    exact (Site.ofPaths_succ _ _ htarget).2.1
  · show _ ≤ (e.backups.targets ++ _).length
    rw [List.length_append, BackupLimiter.targets, List.length_map]
    exact Nat.le_add_right _ _

/-- The paths of a job's own backups come in `siteOf` behind those in flight. -/
theorem backupPath_siteOf {n : Nat} (hn : n < count) :
    (siteOf e p stem count).backupPath (e.backups.running.length + n + 1) =
      backupPath (directoryOf p) (Utf8.lossy stem) (n + 1) := by
  have htarget : (e.backups.targets ++ backupPaths (directoryOf p) (Utf8.lossy stem) count)[
      e.backups.running.length + n]? =
        some (backupPath (directoryOf p) (Utf8.lossy stem) (n + 1)) := by
    have hlength : e.backups.targets.length = e.backups.running.length := List.length_map _
    rw [← hlength, List.getElem?_append_right (Nat.le_add_right _ _), Nat.add_sub_cancel_left,
      backupPaths, List.getElem?_map, List.getElem?_range hn]
    rfl
  exact (Site.ofPaths_succ _ _ htarget).2.1

/-- The site `siteOf` a job has as many backups as are in flight and as the job makes. -/
theorem count_siteOf : (siteOf e p stem count).count = e.backups.running.length + count := by
  show (e.backups.targets ++ backupPaths (directoryOf p) (Utf8.lossy stem) count).length = _
  rw [List.length_append, BackupLimiter.targets, backupPaths, List.length_map, List.length_map,
    List.length_range]

/-- A job begins with an empty output by `FileSystem.create`, and without having printed or copied
anything (`Underway`). The other files are as they were. -/
theorem underway_of_fits (h : e.Fits (paths p stem count)) :
    ∃ file made, e.files.create (p.withExtension "out") = .ok (file, made) ∧
      Underway (siteOf e p stem count) e file [] (e.backups.running.map Prod.snd)
        (.start (Utf8.lossy stem) (directoryOf p)) { cursor := some ⟨file, 0⟩ }
        { e with files := made } ∧
      ∀ input < e.files.contents.length,
        e.files.find? (p.withExtension "out") ≠ some (.file input) →
        made.content input = e.files.content input := by
  have hopen := isOpen_siteOf h
  obtain ⟨file, made, hcreate, hmade⟩ := hopen.output.create h.tidy
  have hempty : made.content file = [] := hmade.empty
  refine ⟨file, made, hcreate, ?_, fun input hlt hother => hmade.contents input ?_⟩
  · exact {
      isOpen := hopen.made hmade
      elsewhere := fun l hl => hmade.elsewhere l fun he => hl (.inl he)
      spares := (spares_siteOf h).made hmade
      output := hmade.here
      printed := by rw [hempty]; rfl
      cursor := by rw [hempty]; rfl
      script := rfl
      flushFault := rfl
      backs := backs_siteOf h made
      sound := id
      paths := fun i hi => by
        rw [List.length_map, count_siteOf] at hi
        rw [List.length_map, backupPath_siteOf (Nat.lt_of_add_lt_add_left hi)]
        show backupPath _ _ (0 + i + 1) = _
        rw [Nat.zero_add]
        rfl }
  · rintro rfl
    rcases hmade.origin with horigin | hnew
    · exact hother (hopen.output.find?_eq.trans horigin)
    · exact absurd hlt (Nat.not_lt.2 hnew)

/-- A job whose files can be written runs to its end by `Engine.runJobAmid`, whichever backups
complete meanwhile. Then all that its commands print is in the file of its output, and all that they
copy is held on to (`Job.Underway`). -/
theorem exists_runJob {input : Nat} (hstem : p.fileStem? = some stem)
    (hinput : e.files.openRead p = .ok (.file input))
    (hother : e.files.find? (p.withExtension "out") ≠ some (.file input))
    (h : e.Fits (paths p stem ((commands (e.files.content input)).count .backup)))
    (completions : List (List Nat)) :
    let commands := commands (e.files.content input)
    let printed := Utf8.encode (String.join (e.table.printsEach commands))
    ∃ file job out ran, e.runJobAmid completions p = (none, ran) ∧
      Underway (siteOf e p stem (commands.count .backup)) e file printed
        (e.backups.running.map Prod.snd ++ e.table.copiesEach commands) job out ran ∧
      ran.files.content file = printed ∧ ran.table = commands.foldl Table.obey e.table := by
  intro commands printed
  obtain ⟨file, made, hcreate, hbegun, hcontents⟩ := underway_of_fits h
  obtain ⟨place, hplace⟩ := FileSystem.exists_of_openRead hinput
  have hcontent := hcontents input (h.tidy.numbered place input hplace) hother
  have hbound : (e.backups.running.map Prod.snd).length + (e.table.copiesEach commands).length ≤
      (siteOf e p stem (commands.count .backup)).count := by
    rw [count_siteOf, List.length_map, Table.length_copiesEach]
  obtain ⟨job, out, executed, hlines, hunderway, htable⟩ := hbegun.executeLines _ hbound completions
  obtain ⟨out', hfinished, hprinted⟩ := hunderway.finish
  refine ⟨file, job, out', executed.emitOutput out out.remainder, ?_, hfinished, hprinted, ?_⟩
  · simp only [Engine.runJobAmid, hstem, hinput, hcreate, Engine.runLines, hcontent]
    exact congrArg (fun r => (r.1, r.2.2.emitOutput r.2.1 r.2.1.remainder)) hlines
  · exact (Engine.table_emitOutput executed out _).trans htable

end Job

open Job in
/-- A job whose files can be written runs to its end, whichever backups complete before each of its
lines (`Engine.runJobAmid`), and when the backups were waited for, in whatever order they complete,
none has failed unless it had before. Whatever the bytes of the job are, only the lines that are
commands matter, and these work on the table in order. The output is what they print, one after
another. The backup of each number is what a dump would print in the place of the command that asks
for it, whatever follows there. Nothing is left beside a backup, and except where the output and the
backups are, those that were in flight among them, nothing has moved. -/
theorem runJob_results {e : Engine} {p : Path} {stem : Bytes} {input : Nat}
    (hstem : p.fileStem? = some stem) (hinput : e.files.openRead p = .ok (.file input))
    (hother : e.files.find? (p.withExtension "out") ≠ some (.file input))
    (hfits : e.Fits (paths p stem ((commands (e.files.content input)).count .backup)))
    (completions : List (List Nat)) (places : List Nat) :
    let commands := commands (e.files.content input)
    let ran := e.runJobAmid completions p
    let done := (ran.2.completeBackups places).waitForBackups
    ran.1 = none ∧ (e.backups.Sound → done.1 = none) ∧
      done.2.table = commands.foldl Table.obey e.table ∧
      done.2.files.contentAt? (p.withExtension "out") =
        some (Utf8.encode (String.join (e.table.printsEach commands))) ∧
      (∀ before rest, commands = before ++ .backup :: rest →
        done.2.files.contentAt?
            (backupPath (directoryOf p) (Utf8.lossy stem) (before.count .backup + 1)) =
          some (Utf8.encode ((before.foldl Table.obey e.table).prints .show))) ∧
      (∀ n < commands.count .backup, done.2.files.find?
          (besideOf (backupPath (directoryOf p) (Utf8.lossy stem) (n + 1))) = none) ∧
      ∀ l ∉ (paths p stem (commands.count .backup) ++ written e.backups.targets).map e.files.locate,
        done.2.files.node? l = e.files.node? l := by
  intro commands ran done
  obtain ⟨file, job, out, after, hran, hunderway, hprinted, htable⟩ :=
    exists_runJob hstem hinput hother hfits completions
  -- nothing waits in the buffer, so what is in the file is still all that was printed
  have hempty : out.pending = [] := by
    have hwhole := hunderway.printed
    rw [hprinted] at hwhole
    exact List.append_right_eq_self.1 hwhole
  replace hunderway := hunderway.completeBackups places
  replace hprinted := hunderway.printed
  rw [hempty, List.append_nil] at hprinted
  obtain ⟨failure, l, fs, hwaited, hsound, hpublishes, hstands⟩ :=
    hunderway.backs.waitAll hunderway.isOpen
  have hdone : done = (failure, { after with backups := l, files := fs }) := by
    show ((e.runJobAmid completions p).2.completeBackups places).waitForBackups = _
    rw [hran, Engine.waitForBackups, hwaited]
    rfl
  have hopen := hpublishes.isOpen hunderway.isOpen
  have hnumbers : ∀ n < commands.count .backup,
      (siteOf e p stem (commands.count .backup)).Numbers (e.backups.running.length + n + 1) := by
    intro n hn
    refine ⟨Nat.succ_pos _, ?_⟩
    rw [count_siteOf]
    omega
  -- the copies of the job stand behind those in flight before it
  have hcopied : ∀ n entries, (e.table.copiesEach commands)[n]? = some entries →
      (siteOf e p stem (commands.count .backup)).Stands (e.backups.running.length + n + 1)
        entries fs := by
    intro n entries hn
    refine hstands _ entries ?_
    rw [← List.length_map (f := Prod.snd), List.getElem?_append_right (Nat.le_add_right _ _),
      Nat.add_sub_cancel_left]
    exact hn
  show (e.runJobAmid completions p).1 = none ∧ _
  rw [hran, hdone]
  refine ⟨rfl, fun h => hsound (hunderway.sound h), htable, ?_, fun before rest hsplit => ?_,
    fun n hn => ?_, fun place hplace => ?_⟩
  · obtain ⟨houtput, hcontent⟩ := hpublishes.output hunderway.isOpen hunderway.output
    have hat := hopen.output.contentAt?_eq houtput
    rw [hcontent, hprinted] at hat
    exact hat
  · have hlt : before.count .backup < commands.count .backup := by
      rw [hsplit, List.count_append, List.count_cons_self]
      omega
    have hsnapshot := e.table.getElem?_copiesEach before rest
    rw [← hsplit] at hsnapshot
    obtain ⟨-, m, hm, hcontent⟩ := hcopied _ _ hsnapshot
    have hat := (hopen.backup _ (hnumbers _ hlt)).contentAt?_eq hm
    rw [backupPath_siteOf hlt, hcontent] at hat
    exact hat
  · have hlength : n < (e.table.copiesEach commands).length := by
      rwa [Table.length_copiesEach]
    obtain ⟨hbeside, -⟩ := hcopied n _ (List.getElem?_eq_getElem hlength)
    have hfound := (hopen.beside _ (hnumbers n hn)).find?_eq
    rw [backupPath_siteOf hn, hbeside] at hfound
    exact hfound
  · have hown : ¬(siteOf e p stem (commands.count .backup)).Own place := fun h =>
      hplace (own_siteOf.1 h)
    exact (hpublishes.elsewhere hown).trans (hunderway.elsewhere place hown)

open Job in
/-- A job with a line that is no text between a backup and a dump of the same table
(`runJob_results`). The backup is complete before that line. -/
theorem runJob_results_snap :
    let input := Utf8.encode "BACKUP\n" ++ 0xFF :: Utf8.encode "\nSHOW"
    let files : FileSystem :=
      { FileSystem.bare.put [Utf8.encode "work", Utf8.encode "snap.job"] (.file 0) with
        contents := [input] }
    let e : Engine := { Engine.ofFiles 2 files with table := (Table.empty.write "a" "1").state }
    let done := (e.runJobAmid [[], [0]] (.ofString "snap.job")).2.waitForBackups.2
    done.files.contentAt? (.ofString "snap.out") = some (Utf8.encode "(a, 1)\n") ∧
      done.files.contentAt? (.ofString "snap-1.bck") = some (Utf8.encode "(a, 1)\n") := by
  intro input files e done
  have hnone : FileSystem.bare.node? ([Utf8.encode "work"] ++ [Utf8.encode "snap.job"]) = none := by
    decide
  have htidy : files.Tidy :=
    (FileSystem.made_of_new FileSystem.tidy_bare rfl hnone).tidy.setContent 0 input
  have hworking : files.node? files.working = some .directory := by decide
  have hstem : (Path.ofString "snap.job").fileStem? = some (Utf8.encode "snap") := by decide
  have hjob : files.Offers (.ofString "snap.job") [Utf8.encode "work", Utf8.encode "snap.job"] :=
    FileSystem.offers_of_name hworking (by decide) (by decide) ⟨by decide, by decide, by decide⟩
      (.inr ⟨0, by decide⟩)
  have hopen : files.openRead (.ofString "snap.job") = .ok (.file 0) := by
    rw [FileSystem.openRead, hjob.place_eq]
    rfl
  have hpaths : paths (.ofString "snap.job") (Utf8.encode "snap") 1 =
      [.ofString "snap.out", .ofString "snap-1.bck", .ofString "snap-1.bck.tmp"] := by decide
  have hfree : ∀ q ∈ paths (.ofString "snap.job") (Utf8.encode "snap") 1,
      files.Offers q ([Utf8.encode "work"] ++ [q.bytes]) ∧
        files.node? ([Utf8.encode "work"] ++ [q.bytes]) = none := by
    intro q hq
    rw [hpaths, List.mem_cons, List.mem_cons, List.mem_singleton] at hq
    rcases hq with rfl | rfl | rfl
    all_goals
      exact ⟨FileSystem.offers_of_name hworking (by decide) (by decide)
        ⟨by decide, by decide, by decide⟩ (.inl (by decide)), by decide⟩
  have hfits : e.Fits (paths (.ofString "snap.job") (Utf8.encode "snap") 1) := by
    refine ⟨htidy, fun q hq => ?_, .nil, fun _ _ => nofun, ?_, nofun⟩
    · obtain ⟨hoffers, -⟩ := hfree q ((List.append_nil _).subst hq)
      exact hoffers.locate_eq.symm.subst hoffers
    · rintro n ⟨id, sink, cursor, hsink, -⟩
      cases hsink
  have hother : files.find? (Path.withExtension (.ofString "snap.job") "out") ≠ some (.file 0) := by
    obtain ⟨hoffers, hnone⟩ := hfree _ List.mem_cons_self
    rw [hoffers.find?_eq, hnone]
    exact nofun
  obtain ⟨-, -, -, hout, hbackups, -⟩ := runJob_results (e := e) hstem hopen hother hfits
    [[], [0]] []
  exact ⟨hout, hbackups [] [.show] (by decide)⟩

end KeyWatch
