import KeyWatch.Proofs.Backup.Pending
import KeyWatch.Proofs.Job.Transcript
import KeyWatch.Proofs.Notice.Files

/-!
# A job that is underway

While a job is underway, what it has printed is in the file of its output and behind that in the
buffer, and what it has copied is held on to as its backups; its files can be written, and nothing
has moved elsewhere (`Job.Underway`). Every command keeps that up: it prints and copies what it
should for the table, and no error ends the job (`Job.Underway.execute`). So the lines of a job,
whatever they are, print and copy what their commands do one after another
(`Job.Underway.executeLines`).
-/

namespace KeyWatch

namespace Sink

/-- A sink without a script takes everything by `write`, into its buffer. -/
theorem write_of_script_eq_nil {s : Sink} (h : s.script = []) (b : Bytes) :
    s.write b = (none, { s with pending := s.pending ++ b }) := by
  obtain ⟨script, flushFault, pending, cursor, flushes⟩ := s
  obtain rfl : script = [] := h
  cases b <;> rfl

end Sink

namespace Engine

/-- What an output in a file emits by `emitOutput` is written there. -/
theorem emitOutput_some {out : Sink} {cursor : FileCursor} (h : out.cursor = some cursor)
    (e : Engine) (b : Bytes) :
    e.emitOutput out (some b) =
      { e with files := e.files.writeAt cursor.node cursor.offset b } := by
  have hline : out.line (.response "") = .file cursor := by
    unfold Sink.line
    rw [h]
  show e.emit ⟨out.line (.response ""), b⟩ = _
  unfold emit
  rw [hline]

/-- What an output emits by `emitOutput` leaves the table as it is. -/
@[simp] theorem table_emitOutput (e : Engine) (out : Sink) (emitted : Option Bytes) :
    (e.emitOutput out emitted).table = e.table := by
  rw [emitOutput, table_emitAll]

end Engine

namespace Job

/-- A job that is underway, with the file of its output, what it has printed and what it has copied
(`Site.Backs`). Nothing has moved, since the job began, but at the places of its files. -/
structure Underway (s : Site) (start : Engine) (file : Nat) (printed : Bytes)
    (taken : List (List Entry)) (job : State) (out : Sink) (e : Engine) : Prop where
  isOpen : s.Open e.files
  elsewhere : ∀ l, ¬s.Own l → e.files.node? l = start.files.node? l
  spares : s.Spares e.channels.WritesTo e.files
  output : e.files.node? s.output = some (.file file)
  printed : e.files.content file ++ out.pending = printed
  cursor : out.cursor = some ⟨file, (e.files.content file).length⟩
  script : out.script = []
  flushFault : out.firstFlushFault = none
  backs : s.Backs taken e.backups e.files
  sound : start.backups.Sound → e.backups.Sound
  paths : ∀ i, taken.length + i < s.count →
    job.backupPath (job.backups + i + 1) = s.backupPath (taken.length + i + 1)

namespace Underway

variable {s : Site} {start e : Engine} {file : Nat} {printed : Bytes} {taken : List (List Entry)}
  {job : State} {out : Sink}

/-- The file of the output of a job that is `Underway` is there. -/
theorem file_lt (h : Underway s start file printed taken job out e) :
    file < e.files.contents.length :=
  h.isOpen.tidy.numbered _ file h.output

/-- The files of backups are others than that of the output (`Underway.output`). -/
theorem backup_ne (h : Underway s start file printed taken job out e) {n : Nat} (hn : s.Numbers n) :
    e.files.node? (s.backup n) ≠ some (.file file) := fun hbackup =>
  h.isOpen.backup_ne_output n hn (h.isOpen.tidy.single _ _ file hbackup h.output)

/-- Changes of the table are none of a job's files' concern, and their notices go elsewhere
(`Engine.deliver`): the job stays `Underway`. -/
theorem deliver (h : Underway s start file printed taken job out e) (table : Table)
    (notices : List Notice) :
    Underway s start file printed taken job out ({ e with table }.deliver notices) := by
  obtain ⟨hwrites, hkept, hbackups⟩ := { e with table }.writesOnly_deliver notices
  replace hwrites : e.files.WritesOnly e.channels.WritesTo
      ({ e with table }.deliver notices).files := hwrites
  have hcontent : ({ e with table }.deliver notices).files.content file = e.files.content file :=
    hwrites.contents file fun hm => (h.spares file hm).2 _ (.inl rfl) h.output
  exact {
    isOpen := h.isOpen.writesOnly hwrites
    elsewhere := fun l hl => (hwrites.node? l).trans (h.elsewhere l hl)
    spares := fun m hm => h.spares.writesOnly hwrites m (hkept m hm)
    output := (hwrites.node? _).trans h.output
    printed := by rw [hcontent, h.printed]
    cursor := by rw [hcontent, h.cursor]
    script := h.script
    flushFault := h.flushFault
    backs := by
      rw [hbackups]
      exact h.backs.writesOnly hwrites fun n m hn hm => (h.spares m hm).2 _ (.inr ⟨n, hn, .inl rfl⟩)
    sound := by
      rw [hbackups]
      exact h.sound
    paths := h.paths }

/-- A text that is printed by `Engine.print` waits in the buffer, and the job stays `Underway`. -/
theorem print (h : Underway s start file printed taken job out e) (text : String) :
    e.print text job out =
        ⟨none, none, { out with pending := out.pending ++ Utf8.encode text }, job, e⟩ ∧
      Underway s start file (printed ++ Utf8.encode text) taken job
        { out with pending := out.pending ++ Utf8.encode text } e := by
  refine ⟨?_, ?_⟩
  · rw [Engine.print, Sink.write_of_script_eq_nil h.script]
    rfl
  · exact {
      h with
      printed := by rw [← List.append_assoc, h.printed] }

/-- What is in the buffer goes into the file when it is flushed (`Engine.emitOutput`), and the job
stays `Underway`. -/
theorem flush (h : Underway s start file printed taken job out e) :
    Underway s start file printed taken job out.advance (e.emitOutput out (some out.pending)) ∧
      (e.emitOutput out (some out.pending)).files.content file = printed := by
  have hwrites := e.files.writesOnly_writeAt file (e.files.content file).length out.pending
  have hcontent := FileSystem.content_writeAt h.file_lt out.pending
  rw [h.printed] at hcontent
  rw [Engine.emitOutput_some h.cursor]
  refine ⟨?_, hcontent⟩
  exact {
    isOpen := h.isOpen.writesOnly hwrites
    elsewhere := fun l hl => (hwrites.node? l).trans (h.elsewhere l hl)
    spares := h.spares.writesOnly hwrites
    output := (hwrites.node? _).trans h.output
    printed := by
      show (e.files.writeAt file _ out.pending).content file ++ [] = printed
      rw [hcontent, List.append_nil]
    cursor := by
      have hlength : (e.files.content file).length + out.pending.length = printed.length := by
        rw [← h.printed, List.length_append]
      rw [Sink.advance, h.cursor, hcontent, ← hlength]
      rfl
    script := h.script
    flushFault := Sink.firstFlushFault_advance h.flushFault
    backs := h.backs.writesOnly hwrites fun n m hn hm => hm ▸ h.backup_ne hn
    sound := h.sound
    paths := h.paths }

/-- When a job is done, all that it has printed is in the file: what was in the buffer is emitted
last (`Sink.remainder`). -/
theorem finish (h : Underway s start file printed taken job out e) :
    ∃ out', Underway s start file printed taken job out' (e.emitOutput out out.remainder) ∧
      (e.emitOutput out out.remainder).files.content file = printed := by
  unfold Sink.remainder
  split
  case isTrue hempty =>
    refine ⟨out, h, ?_⟩
    have hprinted := h.printed
    rwa [List.isEmpty_iff.1 hempty, List.append_nil] at hprinted
  case isFalse => exact ⟨out.advance, h.flush⟩

/-- A text that is announced by `Engine.announce` is in the file at once, behind what was in the
buffer. -/
theorem announce (h : Underway s start file printed taken job out e) (text : String) :
    (e.announce text job out).error = none ∧
      Underway s start file (printed ++ Utf8.encode text) taken (e.announce text job out).job
        (e.announce text job out).out
        ((e.announce text job out).engine.emitOutput out (e.announce text job out).emitted) := by
  rw [Engine.announce, Sink.write_of_script_eq_nil h.script]
  refine ⟨?_, (h.print text).2.flush.1⟩
  have houtcome : out.flushOutcome = none := Sink.flushOutcome_of_firstFlushFault h.flushFault
  exact congrArg (Option.map Error.io) houtcome

/-- A job stays underway when backups are published (`Site.Publishes`), as long as the limiter then
holds on to what was taken and the job's next backups go to the next numbers. -/
theorem of_publishes (h : Underway s start file printed taken job out e) {l : BackupLimiter}
    {fs : FileSystem} {taken' : List (List Entry)} {job' : State} (hbacks : s.Backs taken' l fs)
    (hsound : start.backups.Sound → l.Sound) (hpublishes : s.Publishes e.files fs)
    (hpaths : ∀ i, taken'.length + i < s.count →
      job'.backupPath (job'.backups + i + 1) = s.backupPath (taken'.length + i + 1)) :
    Underway s start file printed taken' job' out { e with backups := l, files := fs } := by
  obtain ⟨houtput, hcontent⟩ := hpublishes.output h.isOpen h.output
  exact {
    isOpen := hpublishes.isOpen h.isOpen
    elsewhere := fun k hk => (hpublishes.elsewhere hk).trans (h.elsewhere k hk)
    spares := h.spares.publishes hpublishes
    output := houtput
    printed := by rw [hcontent, h.printed]
    cursor := by rw [hcontent, h.cursor]
    script := h.script
    flushFault := h.flushFault
    backs := hbacks
    sound := hsound
    paths := hpaths }

/-- Whichever backups complete meanwhile (`Engine.completeBackups`), a job stays underway, with the
same printed and the same copied. -/
theorem completeBackups (h : Underway s start file printed taken job out e) (places : List Nat) :
    Underway s start file printed taken job out (e.completeBackups places) := by
  obtain ⟨hbacks, hpublishes, hsound⟩ := h.backs.completeEach places h.isOpen
  exact h.of_publishes hbacks (fun hstart => hsound (h.sound hstart)) hpublishes h.paths

/-- A backup by `Engine.backup` copies the table as it is, nothing is printed, and the job stays
`Underway`. -/
theorem backup (h : Underway s start file printed taken job out e)
    (hbound : taken.length < s.count) :
    Underway s start file printed (taken ++ [e.table.snapshot]) job.nextBackup.2 out
      (e.backup (job.nextBackup.2.backupPath job.nextBackup.1)) := by
  have hpath : job.nextBackup.2.backupPath job.nextBackup.1 = s.backupPath (taken.length + 1) :=
    h.paths 0 hbound
  obtain ⟨l, fs, hstart, hbacks, hsound, hpublishes⟩ :=
    h.backs.start h.isOpen hbound e.table.snapshot
  have hbackup : e.backup (s.backupPath (taken.length + 1)) =
      { e with backups := l, files := fs } := by
    rw [Engine.backup, hstart]
  rw [hpath, hbackup]
  refine h.of_publishes hbacks (fun _ => hsound) hpublishes fun i hi => ?_
  rw [List.length_append, List.length_singleton, Nat.add_assoc, Nat.add_comm 1] at hi
  have hnext := h.paths (i + 1) hi
  rw [List.length_append, List.length_singleton, Nat.add_assoc taken.length, Nat.add_comm 1,
    ← hnext]
  show job.nextBackup.2.backupPath (job.backups + 1 + i + 1) = _
  rw [Nat.add_assoc job.backups, Nat.add_comm 1]
  rfl

/-- A command prints and copies by `Engine.execute` what it should (`Table.prints`, `Table.copies`),
and does not fail. One case for each command. -/
theorem execute (h : Underway s start file printed taken job out e) (command : Command)
    (hbound : taken.length + (e.table.copies command).length ≤ s.count) :
    let done := e.execute command job out
    done.error = none ∧
      Underway s start file (printed ++ Utf8.encode (e.table.prints command))
        (taken ++ e.table.copies command) done.job done.out
        (done.engine.emitOutput out done.emitted) := by
  have hnothing : printed ++ Utf8.encode "" = printed := List.append_nil printed
  cases command with
  | help | empty | invalid =>
    refine ⟨rfl, ?_⟩
    show Underway s start file (printed ++ Utf8.encode "") (taken ++ []) job out _
    rw [hnothing, List.append_nil]
    exact { h with }
  | write pairs =>
    refine ⟨rfl, ?_⟩
    show Underway s start file (printed ++ Utf8.encode "") (taken ++ []) job out _
    rw [hnothing, List.append_nil]
    exact h.deliver _ _
  | read keys =>
    obtain ⟨hprint, hprinted⟩ := h.print (formatRead (e.table.readMany keys))
    simp only [Engine.execute, hprint, true_and]
    show Underway s start file _ (taken ++ []) job _ e
    rw [List.append_nil]
    exact hprinted
  | «show» =>
    obtain ⟨hprint, hprinted⟩ := h.print (formatShow e.table.snapshot)
    simp only [Engine.execute, hprint, true_and]
    show Underway s start file _ (taken ++ []) job _ e
    rw [List.append_nil]
    exact hprinted
  | delete keys =>
    have hdelivered := h.deliver (e.table.deleteMany keys).state (e.table.deleteMany keys).notices
    show _ ∧ Underway s start file
      (printed ++ Utf8.encode ((formatDelete (e.table.deleteMany keys).result).getD ""))
      (taken ++ []) _ _ _
    rw [List.append_nil]
    simp only [Engine.execute, Engine.apply]
    cases formatDelete (e.table.deleteMany keys).result with
    | none =>
      refine ⟨rfl, ?_⟩
      show Underway s start file (printed ++ Utf8.encode "") taken job out _
      rw [hnothing]
      exact hdelivered
    | some text =>
      obtain ⟨hprint, hprinted⟩ := hdelivered.print text
      simp only [hprint, true_and]
      exact hprinted
  | wait delay =>
    cases delay with
    | zero =>
      refine ⟨rfl, ?_⟩
      show Underway s start file (printed ++ Utf8.encode "") (taken ++ []) job out e
      rw [hnothing, List.append_nil]
      exact h
    | succ delay =>
      show _ ∧ Underway s start file (printed ++ Utf8.encode waiting) (taken ++ []) _ _ _
      rw [List.append_nil]
      exact h.announce waiting
  | backup =>
    refine ⟨rfl, ?_⟩
    show Underway s start file (printed ++ Utf8.encode "") (taken ++ [e.table.snapshot]) _ out _
    rw [hnothing]
    exact h.backup hbound

/-- Lines print and copy what their commands do, and none of them fails, whichever backups complete
before each (`Engine.executeLines`). By induction on the lines: a line without a command is executed
as one that does nothing. -/
theorem executeLines (h : Underway s start file printed taken job out e) (lines : List Bytes)
    (hbound : taken.length + (e.table.copiesEach (lines.filterMap command?)).length ≤ s.count)
    (completions : List (List Nat)) :
    ∃ job' out' e', Engine.executeLines completions lines job out e = (none, out', e') ∧
      Underway s start file
        (printed ++ Utf8.encode (String.join (e.table.printsEach (lines.filterMap command?))))
        (taken ++ e.table.copiesEach (lines.filterMap command?)) job' out' e' ∧
      e'.table = (lines.filterMap command?).foldl Table.obey e.table := by
  induction lines generalizing printed taken job out e completions with
  | nil =>
    refine ⟨job, out, e, rfl, ?_, rfl⟩
    have hprinted : printed ++ Utf8.encode (String.join []) = printed := List.append_nil printed
    show Underway s start file (printed ++ Utf8.encode (String.join [])) (taken ++ []) job out e
    rw [hprinted, List.append_nil]
    exact h
  | cons line rest ih =>
    replace h := h.completeBackups (completions.headD [])
    rw [Engine.executeLines]
    rw [← Engine.table_completeBackups (completions.headD []) e] at hbound ⊢
    generalize e.completeBackups (completions.headD []) = e at h hbound ⊢
    rcases ofBytes_of_command? line with hsome | ⟨hnone, hsilent⟩
    · -- the line is that of a command
      rw [List.filterMap_cons_some hsome] at hbound ⊢
      set command := Command.ofBytes line with hcommand
      rw [Table.copiesEach, List.length_append] at hbound
      obtain ⟨herror, hunderway⟩ := h.execute command (by omega)
      have htable : ((e.execute command job out).engine.emitOutput out
          (e.execute command job out).emitted).table = e.table.obey command := by
        rw [Engine.table_emitOutput, Engine.table_execute]
      obtain ⟨job', out', e', hlines, hafter, htable'⟩ := ih hunderway (by
        rw [htable, List.length_append]
        omega) completions.tail
      rw [htable] at hafter htable'
      refine ⟨job', out', e', ?_, ?_, htable'⟩
      · simp only [herror, hlines]
      · rw [Table.copiesEach, Table.printsEach, ← List.append_assoc]
        rw [List.append_assoc, ← Utf8.encode_append] at hafter
        rwa [String.join_cons]
    · -- the line has no command
      rw [List.filterMap_cons_none hnone] at hbound ⊢
      obtain ⟨job', out', e', hlines, hafter⟩ := ih h hbound completions.tail
      refine ⟨job', out', e', ?_, hafter⟩
      rw [← hlines]
      rcases hsilent with hempty | ⟨text, hinvalid⟩
      · rw [hempty]
        rfl
      · rw [hinvalid]
        rfl

end Underway

end Job

end KeyWatch
