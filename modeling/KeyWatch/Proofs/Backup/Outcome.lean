import KeyWatch.Backup.Disk
import KeyWatch.Proofs.Backup.Published
import KeyWatch.Proofs.Files.Plain

/-!
# What becomes of a snapshot

Whatever the disk does, a snapshot is in its place with all its lines, or what was in its place is
there as it was (`writeSnapshotOn_outcome`).

A disk that has taken everything in the end has done what a disk does that does not fail
(`writeSnapshotOn_of_none`), so a snapshot that is written is published. Until then nothing but the
file beside the target is touched. When an entry cannot be written, that file is removed. When the
writer cannot finish, because the last bytes are not taken or not kept, or because the target is a
directory, the file stays (`writeSnapshotOn_litters`).
-/

namespace KeyWatch

variable {fs fs' : FileSystem} {n : Nat} {script : List Allowance}

/-! ## As on a disk that does not fail -/

/-- What is taken by `offer` of bytes that were offered without a failure is all of them. -/
theorem taken_of_fault_none {b : Bytes} (h : (offer b script).fault = none) :
    (offer b script).taken = b := by
  rcases offer_taken b script with ⟨-, htaken⟩ | ⟨hfault, -⟩
  · exact htaken
  · exact absurd h hfault

namespace BufferedFile

variable {f : BufferedFile} {b : Bytes}

/-- A flush by `flushOn` that the disk does not fail is the `flush` of a disk that never fails. -/
theorem flushOn_of_none (h : (f.flushOn script fs).fault = none) :
    ((f.flushOn script fs).file, (f.flushOn script fs).files) = f.flush fs := by
  have htaken := taken_of_fault_none (Option.map_eq_none_iff.1 h)
  simp only [flushOn, flush, htaken, List.drop_length]

/-- Bytes that `putOn` puts on the disk without a failure are as if they went through the buffer. -/
theorem putOn_of_none (h : (f.putOn b script fs).fault = none) (hbuffer : f.buffer = []) :
    ((f.putOn b script fs).file, (f.putOn b script fs).files) =
      flush { f with buffer := f.buffer ++ b } fs := by
  have htaken := taken_of_fault_none h
  simp only [putOn, flush, htaken, hbuffer, List.nil_append]

/-- What a disk takes by `writeOn` without a failure is written as on a disk that does not fail. -/
theorem writeOn_of_none (h : (f.writeOn b script fs).fault = none) :
    ((f.writeOn b script fs).file, (f.writeOn b script fs).files) = f.write b fs := by
  unfold writeOn at h ⊢
  unfold write
  by_cases hlong : capacity < f.buffer.length + b.length
  · simp only [if_pos hlong] at h ⊢
    cases hfault : (f.flushOn script fs).fault with
    | some _ => simp [hfault] at h
    | none =>
      have hflush := flushOn_of_none hfault
      have hbuffer : (f.flushOn script fs).file.buffer = [] :=
        congrArg (fun done => done.1.buffer) hflush
      simp only [hfault] at h
      simp only [← hflush]
      split at h
      case isTrue hpast =>
        rw [if_pos hpast, if_pos hpast]
        exact putOn_of_none h hbuffer
      case isFalse hkept => rw [if_neg hkept, if_neg hkept]
  · simp only [if_neg hlong] at h ⊢
    split at h
    case isTrue hpast =>
      -- bytes that go past the buffer only fit behind nothing
      have hbuffer : f.buffer = [] := List.length_eq_zero_iff.1 (by omega)
      rw [if_pos hpast, if_pos hpast]
      exact putOn_of_none h hbuffer
    case isFalse hkept => rw [if_neg hkept, if_neg hkept]

/-- A disk without a script takes all of a `flushOn`. -/
theorem flushOn_nil (f : BufferedFile) (fs : FileSystem) :
    (f.flushOn [] fs).fault = none ∧ (f.flushOn [] fs).script = [] := by
  simp [flushOn, offer]

/-- A disk without a script takes all of a `writeOn`. -/
theorem writeOn_nil (b : Bytes) (f : BufferedFile) (fs : FileSystem) :
    (f.writeOn b [] fs).fault = none ∧ (f.writeOn b [] fs).script = [] := by
  obtain ⟨hfault, hscript⟩ := f.flushOn_nil fs
  unfold writeOn
  split
  case isTrue =>
    simp only [hfault, hscript]
    split
    · simp [putOn, offer]
    · exact ⟨hfault, hscript⟩
  case isFalse =>
    simp only
    split
    · simp [putOn, offer]
    · exact ⟨rfl, rfl⟩

end BufferedFile

namespace SnapshotWriter

variable {w : SnapshotWriter} {entries : List Entry} {disk : Disk}

/-- Entries that `writeEntriesOn` writes without a failure are written as on a disk that does not
fail. -/
theorem writeEntriesOn_of_none (h : (writeEntriesOn entries script w fs).1 = none) :
    (writeEntriesOn entries script w fs).2.2 = writeEntries entries w fs := by
  induction entries generalizing w fs script with
  | nil => rfl
  | cons e rest ih =>
    rw [writeEntriesOn] at h ⊢
    cases hfault : (w.file.writeOn (Utf8.encode (Job.formatEntry e.key e.value)) script fs).fault with
    | some fault => simp [hfault] at h
    | none =>
      simp only [hfault] at h ⊢
      rw [ih h, writeEntries, writeEntry, ← BufferedFile.writeOn_of_none hfault]

/-- A disk without a script takes all of `writeEntriesOn`. -/
theorem writeEntriesOn_nil (entries : List Entry) (w : SnapshotWriter) (fs : FileSystem) :
    (writeEntriesOn entries [] w fs).1 = none ∧ (writeEntriesOn entries [] w fs).2.1 = [] := by
  induction entries generalizing w fs with
  | nil => exact ⟨rfl, rfl⟩
  | cons e rest ih =>
    obtain ⟨hfault, hscript⟩ :=
      w.file.writeOn_nil (Utf8.encode (Job.formatEntry e.key e.value)) fs
    simp only [writeEntriesOn, hfault, hscript]
    exact ih _ _

/-- What is left to do by `finishOn` once the last bytes are on the disk has nothing to do with the
disk. -/
theorem finishOn_eq_finish (hfault : (w.file.flushOn disk.script fs).fault = none)
    (hsync : disk.syncFault = none) : w.finishOn disk fs = w.finish fs := by
  have hflush := BufferedFile.flushOn_of_none hfault
  cases hrename : (w.file.flushOn disk.script fs).files.rename w.beside w.target with
  | ok _ => simp only [finishOn, finish, ← hflush, hfault, hsync, hrename]
  | error _ => simp only [finishOn, finish, ← hflush, hfault, hsync, hrename]

/-- A writer that `finishOn` finishes without a failure is finished as on a disk that does not
fail. -/
theorem finishOn_of_none (h : (w.finishOn disk fs).1 = none) :
    w.finishOn disk fs = w.finish fs := by
  unfold finishOn at h
  cases hfault : (w.file.flushOn disk.script fs).fault with
  | some fault => simp [hfault] at h
  | none =>
    cases hsync : disk.syncFault with
    | some fault => simp [hfault, hsync] at h
    | none => exact finishOn_eq_finish hfault hsync

/-- A disk that does not fail makes no difference to `finishOn`. -/
theorem finishOn_sound (w : SnapshotWriter) (fs : FileSystem) : w.finishOn {} fs = w.finish fs :=
  finishOn_eq_finish (w.file.flushOn_nil fs).1 rfl

end SnapshotWriter

/-- A disk that does not fail makes no difference: `writeSnapshotOn` is `writeSnapshot` there. -/
theorem writeSnapshotOn_sound (target : Path) (entries : List Entry) (fs : FileSystem) :
    writeSnapshotOn {} target entries fs = writeSnapshot target entries fs := by
  unfold writeSnapshotOn writeSnapshot
  cases SnapshotWriter.create target fs with
  | error _ => rfl
  | ok made =>
    obtain ⟨w, fs⟩ := made
    obtain ⟨hnone, hscript⟩ := SnapshotWriter.writeEntriesOn_nil entries w fs
    have hwritten := SnapshotWriter.writeEntriesOn_of_none hnone
    simp only
    generalize SnapshotWriter.writeEntriesOn entries [] w fs = run at hnone hscript hwritten ⊢
    obtain ⟨failure, script, w', filled⟩ := run
    obtain rfl : failure = none := hnone
    obtain rfl : script = [] := hscript
    rw [← hwritten]
    exact SnapshotWriter.finishOn_sound w' filled

/-- A disk that takes all of a snapshot in the end makes no difference to `writeSnapshotOn`
either. -/
theorem writeSnapshotOn_of_none {disk : Disk} {target : Path} {entries : List Entry}
    (h : writeSnapshotOn disk target entries fs = (none, fs')) :
    writeSnapshot target entries fs = (none, fs') := by
  unfold writeSnapshotOn at h
  unfold writeSnapshot
  cases hcreate : SnapshotWriter.create target fs with
  | error e => simp [hcreate] at h
  | ok made =>
    obtain ⟨w, fs⟩ := made
    simp only [hcreate] at h ⊢
    split at h
    case h_1 => cases h
    case h_2 script w' filled hfilled =>
      have hwritten := SnapshotWriter.writeEntriesOn_of_none (congrArg Prod.fst hfilled)
      rw [hfilled] at hwritten
      rw [← hwritten, ← SnapshotWriter.finishOn_of_none (congrArg Prod.fst h), h]

/-! ## What is touched -/

namespace BufferedFile

variable {f : BufferedFile}

/-- A flush by `flushOn` goes into the file of the writer and into no other. -/
theorem flushOn_touches (h : f.cursor.node = n) (script : List Allowance) (fs : FileSystem) :
    fs.WritesOnly (· = n) (f.flushOn script fs).files ∧
      (f.flushOn script fs).file.cursor.node = n := by
  subst h
  exact ⟨fs.writesOnly_writeAt _ _ _, rfl⟩

/-- Bytes that `putOn` puts on the disk go into the file of the writer and into no other. -/
theorem putOn_touches (h : f.cursor.node = n) (b : Bytes) (script : List Allowance)
    (fs : FileSystem) :
    fs.WritesOnly (· = n) (f.putOn b script fs).files ∧
      (f.putOn b script fs).file.cursor.node = n := by
  subst h
  exact ⟨fs.writesOnly_writeAt _ _ _, rfl⟩

/-- Bytes that `writeOn` writes go into the file of the writer and into no other
(`FileSystem.WritesOnly`). -/
theorem writeOn_touches (h : f.cursor.node = n) (b : Bytes) (script : List Allowance)
    (fs : FileSystem) :
    fs.WritesOnly (· = n) (f.writeOn b script fs).files ∧
      (f.writeOn b script fs).file.cursor.node = n := by
  have hfirst : ∀ first : Written, first = (if capacity < f.buffer.length + b.length then
      f.flushOn script fs else ⟨none, script, f, fs⟩) →
        fs.WritesOnly (· = n) first.files ∧ first.file.cursor.node = n := by
    rintro first rfl
    split
    · exact flushOn_touches h script fs
    · exact ⟨.refl _ fs, h⟩
  unfold writeOn
  generalize hdone : (if capacity < f.buffer.length + b.length then
    f.flushOn script fs else ⟨none, script, f, fs⟩) = first
  obtain ⟨hwrites, hnode⟩ := hfirst first hdone.symm
  simp only
  split
  case h_1 => exact ⟨hwrites, hnode⟩
  case h_2 =>
    split
    case isTrue =>
      obtain ⟨hput, hnode'⟩ := putOn_touches hnode b first.script first.files
      exact ⟨hwrites.trans hput, hnode'⟩
    case isFalse => exact ⟨hwrites, hnode⟩

end BufferedFile

namespace SnapshotWriter

variable {w w' : SnapshotWriter} {entries : List Entry} {disk : Disk}

/-- Entries that `writeEntriesOn` writes go into the file beside the target. -/
theorem writeEntriesOn_touches {failure : Option Error} {script' : List Allowance}
    (h : writeEntriesOn entries script w fs = (failure, script', w', fs'))
    (hnode : w.file.cursor.node = n) :
    fs.WritesOnly (· = n) fs' ∧ w'.file.cursor.node = n ∧ w'.beside = w.beside ∧
      w'.target = w.target := by
  induction entries generalizing w fs script with
  | nil =>
    cases h
    exact ⟨.refl _ _, hnode, rfl, rfl⟩
  | cons e rest ih =>
    obtain ⟨hwrites, hnode'⟩ := BufferedFile.writeOn_touches hnode
      (Utf8.encode (Job.formatEntry e.key e.value)) script fs
    rw [writeEntriesOn] at h
    generalize w.file.writeOn (Utf8.encode (Job.formatEntry e.key e.value)) script fs = written
      at h hwrites hnode'
    cases hfault : written.fault with
    | some fault =>
      simp only [hfault] at h
      cases h
      exact ⟨hwrites, hnode', rfl, rfl⟩
    | none =>
      simp only [hfault] at h
      obtain ⟨hrest, hlast, hbeside, htarget⟩ := ih h hnode'
      exact ⟨hwrites.trans hrest, hlast, hbeside, htarget⟩

/-- A writer that `finishOn` cannot finish has touched nothing but its file, and one that it can has
given that the target's place. -/
theorem finishOn_touches {failure : Option Error} (h : w.finishOn disk fs = (failure, fs'))
    (hnode : w.file.cursor.node = n) :
    ∃ flushed, fs.WritesOnly (· = n) flushed ∧
      (failure = none ∧ flushed.rename w.beside w.target = .ok fs' ∨
        failure ≠ none ∧ fs' = flushed) := by
  obtain ⟨hflushed, hnode'⟩ := BufferedFile.flushOn_touches hnode disk.script fs
  unfold finishOn at h
  simp only at h
  split at h
  case h_1 =>
    cases h
    exact ⟨_, hflushed.trans (BufferedFile.flushOn_touches hnode' _ _).1, .inr ⟨nofun, rfl⟩⟩
  case h_2 =>
    split at h
    case h_1 =>
      cases h
      exact ⟨_, hflushed, .inr ⟨nofun, rfl⟩⟩
    case h_2 =>
      split at h
      case h_1 hrename =>
        cases h
        exact ⟨_, hflushed, .inl ⟨rfl, hrename⟩⟩
      case h_2 =>
        cases h
        exact ⟨_, hflushed, .inr ⟨nofun, rfl⟩⟩

/-- A writer that is given up by `discardOn` removes its file. -/
theorem discardOn_eq {l : Location} (hbeside : fs.Offers w.beside l)
    (hfile : fs.node? l = some (.file n)) (hnode : w.file.cursor.node = n)
    (script : List Allowance) :
    ∃ flushed, fs.WritesOnly (· = n) flushed ∧ w.discardOn script fs = flushed.clear l := by
  obtain ⟨hflushed, -⟩ := BufferedFile.flushOn_touches hnode script fs
  refine ⟨_, hflushed, ?_⟩
  have hunlink := (hflushed.offers hbeside).unlink ((hflushed.node? l).trans hfile)
  simp only [discardOn, hunlink]

/-- Where the file beside the target was made by `create` there is a place for it. -/
theorem exists_of_create {target : Path} (hplain : fs.Plain) (htidy : fs.Tidy)
    (h : create target fs = .ok (w, fs')) :
    ∃ n source, w = ⟨target, besideOf target, .ofFile n⟩ ∧ fs.Offers (besideOf target) source ∧
      fs.Made fs' source n := by
  have hbeside : target.withExtension besideExtension = besideOf target := rfl
  cases hcreate : fs.create (besideOf target) with
  | error fault =>
    simp only [create, hbeside, hcreate] at h
    cases h
  | ok made =>
    simp only [create, hbeside, hcreate] at h
    cases h
    obtain ⟨source, hoffers⟩ := FileSystem.offers_of_create hplain htidy hcreate
    obtain ⟨n, made', hcreate', hmade⟩ := hoffers.create htidy
    rw [hcreate] at hcreate'
    cases hcreate'
    exact ⟨_, source, rfl, hoffers, hmade⟩

end SnapshotWriter

/-! ## What becomes of it -/

section

variable {disk : Disk} {target : Path} {entries : List Entry} {source : Location}

/-- The file beside a target (`besideOf`) is at another place. -/
theorem not_offers_besideOf (htidy : fs.Tidy) (h : fs.Offers (besideOf target) source) :
    ¬fs.Offers target source :=
  fun h' => h'.ne_withExtension h htidy (by decide) (by decide) rfl

/-- A change beside the target (`FileSystem.ChangedAt`) is none at the target. -/
theorem kept_of_changedAt (hplain : fs.Plain) (htidy : fs.Tidy)
    (hbeside : fs.Offers (besideOf target) source) (h : fs.ChangedAt fs' source n) :
    fs'.find? target = fs.find? target ∧ fs'.contentAt? target = fs.contentAt? target ∧
      fs'.find? (besideOf target) = fs'.node? source := by
  have hother := not_offers_besideOf htidy hbeside
  have hhere : fs'.Offers (besideOf target) source :=
    hbeside.congr (h.sameWays hbeside.way?_eq_none) (h.here.imp_right fun hfile => ⟨n, hfile⟩)
  exact ⟨(h.find?_eq hplain htidy hbeside.free hother).1,
    h.contentAt?_eq hplain htidy hbeside.free hother, hhere.find?_eq⟩

/-- A snapshot that `writeSnapshotOn` writes is published (`FileSystem.Published`). -/
theorem published_of_none (hplain : fs.Plain) (htidy : fs.Tidy)
    (h : writeSnapshotOn disk target entries fs = (none, fs')) :
    ∃ source place n, fs.Offers (besideOf target) source ∧ fs.Offers target place ∧
      fs.Published fs' source place n (Utf8.encode (Job.formatShow entries)) := by
  have hsound := writeSnapshotOn_of_none h
  unfold writeSnapshotOn at h
  cases hcreate : SnapshotWriter.create target fs with
  | error e => simp [hcreate] at h
  | ok made =>
    obtain ⟨w, made⟩ := made
    obtain ⟨n, source, rfl, hoffers, hmade⟩ :=
      SnapshotWriter.exists_of_create hplain htidy hcreate
    simp only [hcreate] at h
    split at h
    case h_1 => cases h
    case h_2 script w' filled hfilled =>
      obtain ⟨hwrites, hnode, hbeside, htarget⟩ :=
        SnapshotWriter.writeEntriesOn_touches (n := n) hfilled rfl
      obtain ⟨flushed, hflushed, ⟨-, hrename⟩ | ⟨hfailed, -⟩⟩ :=
        SnapshotWriter.finishOn_touches h hnode
      case inr => exact absurd rfl hfailed
      have hall := hwrites.trans hflushed
      have hchanged : fs.ChangedAt flushed source n :=
        (FileSystem.ChangedAt.of_made hmade).writesOnly hall
      have hways := hchanged.sameWays hoffers.way?_eq_none
      have hfile : flushed.node? source = some (.file n) :=
        (hall.node? source).trans hmade.here
      have hoffers' := hoffers.congr hways (.inr ⟨n, hfile⟩)
      have htidy' := hall.tidy hmade.tidy
      rw [hbeside, htarget] at hrename
      obtain ⟨place, hplace⟩ :=
        FileSystem.offers_of_rename (hchanged.plain hplain) htidy' hoffers' hfile hrename
      have hne : source ≠ place := by
        rintro rfl
        exact not_offers_besideOf htidy' hoffers' hplace
      have hplace : fs.Offers target place :=
        hplace.congr hways.symm (by rw [← hchanged.elsewhere place hne.symm]; exact hplace.free)
      obtain ⟨m, done, hdone, hpublished⟩ :=
        writeSnapshot_published hoffers hplace hne htidy entries
      rw [hsound] at hdone
      cases hdone
      exact ⟨source, place, m, hoffers, hplace, hpublished⟩

/-- What is published by `writeSnapshotOn` is at the target, and nothing is left beside it. -/
theorem contents_of_none (hplain : fs.Plain) (htidy : fs.Tidy)
    (h : writeSnapshotOn disk target entries fs = (none, fs')) :
    fs'.contentAt? target = some (Utf8.encode (Job.formatShow entries)) ∧
      fs'.find? (besideOf target) = none := by
  obtain ⟨source, place, n, hsource, hplace, hpublished⟩ := published_of_none hplain htidy h
  have hways : fs.SameWays fs' := by
    refine ⟨hpublished.working, fun l => ?_⟩
    by_cases hl : l = source
    · rw [hl, hsource.way?_eq_none, hpublished.left]
      rfl
    · by_cases hl' : l = place
      · rw [hl', hplace.way?_eq_none, hpublished.taken]
        rfl
      · rw [hpublished.elsewhere l hl hl']
  have hsource' := hsource.congr hways (.inl hpublished.left)
  have hplace' := hplace.congr hways (.inr ⟨n, hpublished.taken⟩)
  refine ⟨?_, hsource'.find?_eq.trans hpublished.left⟩
  rw [hplace'.contentAt?_eq hpublished.taken, hpublished.content]

/-- A snapshot of which an entry could not be written leaves nothing behind: `discardOn` removes its
file, and the target is as it was. -/
theorem kept_of_discardOn {w w' : SnapshotWriter} {made filled : FileSystem} {e : Error}
    {script' : List Allowance} (hplain : fs.Plain) (htidy : fs.Tidy)
    (hcreate : SnapshotWriter.create target fs = .ok (w, made))
    (hrun : SnapshotWriter.writeEntriesOn entries script w made = (some e, script', w', filled)) :
    (w'.discardOn script' filled).find? target = fs.find? target ∧
      (w'.discardOn script' filled).contentAt? target = fs.contentAt? target ∧
      (w'.discardOn script' filled).find? (besideOf target) = none := by
  obtain ⟨n, source, rfl, hoffers, hmade⟩ := SnapshotWriter.exists_of_create hplain htidy hcreate
  obtain ⟨hwrites, hnode, hbeside, -⟩ :=
    SnapshotWriter.writeEntriesOn_touches (n := n) hrun rfl
  have hchanged : fs.ChangedAt filled source n :=
    (FileSystem.ChangedAt.of_made hmade).writesOnly hwrites
  have hfile : filled.node? source = some (.file n) := (hwrites.node? source).trans hmade.here
  have hoffers' := hoffers.congr (hchanged.sameWays hoffers.way?_eq_none) (.inr ⟨n, hfile⟩)
  obtain ⟨flushed, hflushed, hdiscard⟩ :=
    SnapshotWriter.discardOn_eq (hbeside ▸ hoffers') hfile hnode script'
  obtain ⟨_, _, rfl, -⟩ := hoffers.exists_directory htidy
  have hroot : ∀ (d : Location) (name : Bytes), d ++ [name] ≠ [] := by simp
  rw [hdiscard]
  obtain ⟨hfind, hcontent, hhere⟩ := kept_of_changedAt hplain htidy hoffers
    ((hchanged.writesOnly hflushed).clear (hroot _ _))
  refine ⟨hfind, hcontent, ?_⟩
  rw [hhere, FileSystem.node?_clear (hroot _ _), if_pos rfl]

/-- All entries of a snapshot were written by `writeEntriesOn`, and it is for its writer to
finish. -/
def SnapshotWriter.WritesAll (disk : Disk) (target : Path) (entries : List Entry)
    (fs : FileSystem) : Prop :=
  ∃ w made script w' filled, create target fs = .ok (w, made) ∧
    writeEntriesOn entries disk.script w made = (none, script, w', filled)

/-- If its file can be made, all entries are written on a disk that does not fail
(`SnapshotWriter.WritesAll`). -/
theorem writesAll_of_offers (htidy : fs.Tidy) (h : fs.Offers (besideOf target) source)
    (entries : List Entry) : SnapshotWriter.WritesAll {} target entries fs := by
  obtain ⟨n, made, hcreate, -⟩ := h.create htidy
  have hbeside : target.withExtension SnapshotWriter.besideExtension = besideOf target := rfl
  obtain ⟨hnone, -⟩ := SnapshotWriter.writeEntriesOn_nil entries
    ⟨target, besideOf target, .ofFile n⟩ made
  refine ⟨⟨target, besideOf target, .ofFile n⟩, made, _, _, _, ?_, Prod.ext hnone rfl⟩
  simp only [SnapshotWriter.create, hbeside, hcreate]

/-- A snapshot whose writer cannot finish leaves the file beside the target, and the target as it
was: `finishOn` has nothing to discard any more. -/
theorem kept_of_writesAll {e : Error} (hplain : fs.Plain) (htidy : fs.Tidy)
    (hall : SnapshotWriter.WritesAll disk target entries fs)
    (h : writeSnapshotOn disk target entries fs = (some e, fs')) :
    fs'.find? target = fs.find? target ∧ fs'.contentAt? target = fs.contentAt? target ∧
      ∃ n, fs'.find? (besideOf target) = some (.file n) := by
  obtain ⟨w, made, script, w', filled, hcreate, hrun⟩ := hall
  simp only [writeSnapshotOn, hcreate, hrun] at h
  obtain ⟨n, source, rfl, hoffers, hmade⟩ := SnapshotWriter.exists_of_create hplain htidy hcreate
  obtain ⟨hwrites, hnode, -, -⟩ := SnapshotWriter.writeEntriesOn_touches (n := n) hrun rfl
  obtain ⟨flushed, hflushed, ⟨hdone, -⟩ | ⟨-, rfl⟩⟩ := SnapshotWriter.finishOn_touches h hnode
  case inl => cases hdone
  have hall := hwrites.trans hflushed
  obtain ⟨hfind, hcontent, hhere⟩ := kept_of_changedAt hplain htidy hoffers
    ((FileSystem.ChangedAt.of_made hmade).writesOnly hall)
  exact ⟨hfind, hcontent, n, hhere.trans ((hall.node? source).trans hmade.here)⟩

/-- In a file system of directories and files, whatever the disk does: a snapshot that
`writeSnapshotOn` writes is the file at its target, with exactly the lines of the entries, and
nothing is left beside it. If it is not written, the target leads to what it led to, and that is as
it was. Nothing is left beside it then either, if an entry could not be written, and nothing has
changed at all, if the file beside it could not be made; but if all entries were written
(`SnapshotWriter.WritesAll`), the file is left. -/
theorem writeSnapshotOn_outcome (hplain : fs.Plain) (htidy : fs.Tidy) (disk : Disk)
    (target : Path) (entries : List Entry) :
    ∃ failure fs', writeSnapshotOn disk target entries fs = (failure, fs') ∧
      (failure = none →
        fs'.contentAt? target = some (Utf8.encode (Job.formatShow entries)) ∧
          fs'.find? (besideOf target) = none) ∧
      (failure ≠ none →
        fs'.find? target = fs.find? target ∧ fs'.contentAt? target = fs.contentAt? target ∧
          ((∃ e, SnapshotWriter.create target fs = .error e) ∧ fs' = fs ∨
            ¬SnapshotWriter.WritesAll disk target entries fs ∧
              fs'.find? (besideOf target) = none ∨
            SnapshotWriter.WritesAll disk target entries fs ∧
              ∃ n, fs'.find? (besideOf target) = some (.file n))) := by
  cases h : writeSnapshotOn disk target entries fs with
  | mk failure fs' =>
    refine ⟨failure, fs', rfl, ?_, fun hfailed => ?_⟩
    · rintro rfl
      exact contents_of_none hplain htidy h
    · obtain ⟨e, rfl⟩ := Option.ne_none_iff_exists'.1 hfailed
      cases hcreate : SnapshotWriter.create target fs with
      | error fault =>
        simp only [writeSnapshotOn, hcreate] at h
        cases h
        exact ⟨rfl, rfl, .inl ⟨⟨e, rfl⟩, rfl⟩⟩
      | ok made =>
        obtain ⟨w, made⟩ := made
        cases hrun : SnapshotWriter.writeEntriesOn entries disk.script w made with
        | mk failure rest =>
          obtain ⟨script, w', filled⟩ := rest
          cases failure with
          | none =>
            have hall : SnapshotWriter.WritesAll disk target entries fs :=
              ⟨w, made, script, w', filled, hcreate, hrun⟩
            obtain ⟨hfind, hcontent, hbeside⟩ := kept_of_writesAll hplain htidy hall h
            exact ⟨hfind, hcontent, .inr (.inr ⟨hall, hbeside⟩)⟩
          | some fault =>
            simp only [writeSnapshotOn, hcreate, hrun] at h
            cases h
            obtain ⟨hfind, hcontent, hbeside⟩ := kept_of_discardOn hplain htidy hcreate hrun
            refine ⟨hfind, hcontent, .inr (.inl ⟨?_, hbeside⟩)⟩
            rintro ⟨_, _, _, _, _, hcreate', hrun'⟩
            cases hcreate.symm.trans hcreate'
            cases hrun.symm.trans hrun'

end

/-- A snapshot of one entry is written into the working directory (`writeSnapshotOn_outcome`). -/
theorem writeSnapshotOn_outcome_oneEntry :
    ∃ fs', writeSnapshotOn {} (.ofString "a") [⟨"k", "v"⟩] .bare = (none, fs') ∧
      fs'.contentAt? (.ofString "a") = some (Utf8.encode "(k, v)\n") ∧
      fs'.find? (besideOf (.ofString "a")) = none := by
  have htarget : FileSystem.bare.Offers (.ofString "a") [Utf8.encode "work", Utf8.encode "a"] :=
    FileSystem.offers_of_name rfl (by decide) (by decide) ⟨by decide, by decide, by decide⟩
      (.inl (by decide))
  have hbeside : FileSystem.bare.Offers (besideOf (.ofString "a"))
      [Utf8.encode "work", Utf8.encode "a.bck.tmp"] :=
    FileSystem.offers_of_name rfl (by decide +kernel) (by decide +kernel)
      ⟨by decide +kernel, by decide +kernel, by decide +kernel⟩ (.inl (by decide +kernel))
  obtain ⟨n, done, hdone, -⟩ :=
    writeSnapshot_published hbeside htarget (by decide) FileSystem.tidy_bare [⟨"k", "v"⟩]
  obtain ⟨failure, fs', hwritten, hpublished, -⟩ := writeSnapshotOn_outcome FileSystem.plain_bare
    FileSystem.tidy_bare {} (.ofString "a") [⟨"k", "v"⟩]
  have hnone : failure = none := by
    rw [writeSnapshotOn_sound, hdone] at hwritten
    exact (congrArg Prod.fst hwritten).symm
  subst hnone
  exact ⟨fs', hwritten, hpublished rfl⟩

/-- A working directory in which a directory stands where a snapshot is to go
(`writeSnapshotOn_litters`). -/
def occupied : FileSystem :=
  FileSystem.bare.put ([Utf8.encode "work"] ++ [Utf8.encode "d"]) .directory

/-- A snapshot that cannot take the place of a directory in `occupied` leaves its file beside it. -/
theorem writeSnapshotOn_litters :
    occupied.find? (besideOf (.ofString "d")) = none ∧
      ∃ e fs', writeSnapshotOn {} (.ofString "d") [⟨"k", "v"⟩] occupied = (some e, fs') ∧
        ∃ n, fs'.find? (besideOf (.ofString "d")) = some (.file n) := by
  have hplain : occupied.Plain := FileSystem.plain_bare.putDirectory (by simp)
  have htidy : occupied.Tidy := FileSystem.tidy_bare.putDirectory rfl
  have hbeside : occupied.Offers (besideOf (.ofString "d"))
      [Utf8.encode "work", Utf8.encode "d.bck.tmp"] :=
    FileSystem.offers_of_name (by decide) (by decide +kernel) (by decide +kernel)
      ⟨by decide +kernel, by decide +kernel, by decide +kernel⟩ (.inl (by decide +kernel))
  have hnone : occupied.node? [Utf8.encode "work", Utf8.encode "d.bck.tmp"] = none := by decide
  refine ⟨hbeside.find?_eq.trans hnone, ?_⟩
  cases hwritten : writeSnapshotOn {} (.ofString "d") [⟨"k", "v"⟩] occupied with
  | mk failure fs' =>
    cases failure with
    | none =>
      -- then the target would be a place for a file
      obtain ⟨-, place, -, -, hplace, -⟩ := published_of_none hplain htidy hwritten
      have hslot : occupied.slot false (.ofString "d") =
          .ok ⟨[Utf8.encode "work", Utf8.encode "d"], some .directory, false⟩ :=
        FileSystem.slot_eq_ok_iff.2 ⟨by decide, .enter (by decide)
          ⟨by decide, by decide, by decide⟩ (by decide) (.done _ _), rfl⟩
      have hdir : occupied.node? place = some .directory :=
        congrArg Place.node (Except.ok.inj (hplace.slot.symm.trans hslot))
      exact absurd rfl (hplace.ne_directory hdir)
    | some e =>
      have hall := writesAll_of_offers htidy hbeside [⟨"k", "v"⟩]
      exact ⟨e, fs', rfl, (kept_of_writesAll hplain htidy hall hwritten).2.2⟩

end KeyWatch
