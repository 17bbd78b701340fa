import KeyWatch.Backup.Snapshot
import KeyWatch.Proofs.Files.Places

/-!
# Snapshots in their place

A snapshot that can be written is written whole. If the target and the path beside it lead to free
places, the target names in the end a file with exactly the lines of the entries, nothing is left
beside it, and no other place and no other file has changed (`writeSnapshot_published`). The file is
one that no other place has: it is new or is the one that stood beside the target.
-/

namespace KeyWatch

/-- The encoding of texts that are joined is that of each, one behind another (`Utf8.encode`). -/
theorem Utf8.encode_join (texts : List String) :
    encode (String.join texts) = texts.flatMap encode := by
  rw [encode, String.toList_join, List.flatMap_assoc]
  rfl

variable {fs : FileSystem} {n : Nat} {b : Bytes}

/-! ## Through the buffer -/

namespace BufferedFile

/-- A buffered file carries bytes: the first of them are the content of its file, and the others are
in the `buffer`. -/
structure Carries (f : BufferedFile) (n : Nat) (b : Bytes) (fs : FileSystem) : Prop where
  cursor : f.cursor = ⟨n, (fs.content n).length⟩
  bytes : fs.content n ++ f.buffer = b

variable {f : BufferedFile}

/-- A `flush` puts all bytes that are carried into the file, and nothing but the file changes. -/
theorem Carries.flush (h : f.Carries n b fs) (hn : n < fs.contents.length) :
    (f.flush fs).1.Carries n b (f.flush fs).2 ∧ (f.flush fs).2.content n = b ∧
      fs.WritesOnly (· = n) (f.flush fs).2 := by
  obtain ⟨⟨node, offset⟩, buffer⟩ := f
  obtain ⟨hcursor, hbytes⟩ := h
  cases hcursor
  have hcontent := FileSystem.content_writeAt hn buffer
  rw [hbytes] at hcontent
  refine ⟨⟨?_, ?_⟩, hcontent, fs.writesOnly_writeAt n _ buffer⟩
  · show FileCursor.mk n _ = FileCursor.mk n _
    rw [BufferedFile.flush, hcontent, ← hbytes, List.length_append]
  · show (fs.writeAt n _ buffer).content n ++ [] = b
    rw [hcontent, List.append_nil]

/-- A `flush` that depends on a condition leaves the bytes carried either way. -/
theorem Carries.flushIf (h : f.Carries n b fs) (hn : n < fs.contents.length) (p : Prop)
    [Decidable p] : (if p then f.flush fs else (f, fs)).1.Carries n b
        (if p then f.flush fs else (f, fs)).2 ∧
      fs.WritesOnly (· = n) (if p then f.flush fs else (f, fs)).2 := by
  split
  case isTrue =>
    obtain ⟨hcarries, -, hwrites⟩ := h.flush hn
    exact ⟨hcarries, hwrites⟩
  case isFalse => exact ⟨h, .refl _ fs⟩

/-- Bytes that come into the `buffer` are carried behind the others. -/
theorem Carries.push (h : f.Carries n b fs) (more : Bytes) :
    Carries { f with buffer := f.buffer ++ more } n (b ++ more) fs where
  cursor := h.cursor
  bytes := by
    show fs.content n ++ (f.buffer ++ more) = b ++ more
    rw [← List.append_assoc, h.bytes]

/-- Bytes that are written by `BufferedFile.write` come behind the others, and nothing but the file
changes. -/
theorem Carries.write (h : f.Carries n b fs) (hn : n < fs.contents.length) (more : Bytes) :
    (f.write more fs).1.Carries n (b ++ more) (f.write more fs).2 ∧
      fs.WritesOnly (· = n) (f.write more fs).2 := by
  obtain ⟨hfirst, hwrites⟩ := h.flushIf hn (capacity < f.buffer.length + more.length)
  obtain ⟨hsecond, hwrites'⟩ := (hfirst.push more).flushIf
    (Nat.lt_of_lt_of_eq hn hwrites.length.symm) (capacity ≤ more.length)
  exact ⟨hsecond, hwrites.trans hwrites'⟩

end BufferedFile

/-! ## Snapshots -/

namespace SnapshotWriter

variable {w : SnapshotWriter}

/-- Entries that `writeEntries` writes come behind the others as the lines that show them
(`Job.formatShow`). -/
theorem carries_writeEntries (h : w.file.Carries n b fs) (hn : n < fs.contents.length)
    (entries : List Entry) :
    (writeEntries entries w fs).1.file.Carries n
        (b ++ Utf8.encode (Job.formatShow entries)) (writeEntries entries w fs).2 ∧
      (writeEntries entries w fs).1.beside = w.beside ∧
      (writeEntries entries w fs).1.target = w.target ∧
      fs.WritesOnly (· = n) (writeEntries entries w fs).2 := by
  induction entries generalizing w fs b with
  | nil =>
    refine ⟨?_, rfl, rfl, .refl _ fs⟩
    have hnone : Utf8.encode (Job.formatShow []) = [] := by simp [Job.formatShow, Utf8.encode]
    rwa [hnone, List.append_nil]
  | cons e rest ih =>
    have hlines : Utf8.encode (Job.formatShow (e :: rest)) =
        Utf8.encode (Job.formatEntry e.key e.value) ++ Utf8.encode (Job.formatShow rest) := by
      simp only [Job.formatShow, Utf8.encode_join, List.map_cons, List.flatMap_cons]
    obtain ⟨hfirst, hwrites⟩ := h.write hn (Utf8.encode (Job.formatEntry e.key e.value))
    cases hwritten : w.file.write (Utf8.encode (Job.formatEntry e.key e.value)) fs with
    | mk file written =>
      rw [hwritten] at hfirst hwrites
      have hstep : writeEntries (e :: rest) w fs =
          writeEntries rest { w with file := file } written := by
        rw [writeEntries, writeEntry, hwritten]
      have hn' : n < written.contents.length := Nat.lt_of_lt_of_eq hn hwrites.length.symm
      obtain ⟨hcarries, hbeside, htarget, hwrites'⟩ := ih (w := { w with file := file }) hfirst hn'
      rw [hstep, hlines, ← List.append_assoc]
      exact ⟨hcarries, hbeside, htarget, hwrites.trans hwrites'⟩

end SnapshotWriter

/-- A file system in which bytes were published at a place, through a file at another: the file has
the place (`taken`), nothing is left where it was, and nothing else has changed. -/
structure FileSystem.Published (fs fs' : FileSystem) (source target : Location) (n : Nat)
    (b : Bytes) : Prop where
  tidy : fs'.Tidy
  working : fs'.working = fs.working
  taken : fs'.node? target = some (.file n)
  content : fs'.content n = b
  left : fs'.node? source = none
  elsewhere : ∀ l, l ≠ source → l ≠ target → fs'.node? l = fs.node? l
  contents : ∀ m ≠ n, fs'.content m = fs.content m
  origin : fs.node? source = some (.file n) ∨ fs.contents.length ≤ n
  length : fs.contents.length ≤ fs'.contents.length

/-- The path beside the target of a snapshot, at which its file is written
(`SnapshotWriter.besideExtension`). -/
def besideOf (target : Path) : Path := target.withExtension SnapshotWriter.besideExtension

/-- A snapshot whose target and the path beside it offer free places is written whole by
`writeSnapshot`, and nothing else changes (`FileSystem.Published`). -/
theorem writeSnapshot_published {target : Path} {source place : Location}
    (hsource : fs.Offers (besideOf target) source) (hplace : fs.Offers target place)
    (hne : source ≠ place) (htidy : fs.Tidy) (entries : List Entry) :
    ∃ n fs', writeSnapshot target entries fs = (none, fs') ∧
      fs.Published fs' source place n (Utf8.encode (Job.formatShow entries)) := by
  obtain ⟨n, made, hcreate, hmade⟩ := hsource.create htidy
  have hn : n < made.contents.length := hmade.tidy.numbered source n hmade.here
  have hcarries : (BufferedFile.ofFile n).Carries n [] made :=
    ⟨by rw [hmade.empty]; rfl, by rw [hmade.empty]; rfl⟩
  obtain ⟨hwritten, hbeside, htarget, hwrites⟩ := SnapshotWriter.carries_writeEntries
    (w := ⟨target, besideOf target, .ofFile n⟩) hcarries hn entries
  have hn' := Nat.lt_of_lt_of_eq hn hwrites.length.symm
  obtain ⟨-, hcontent, hflushed⟩ := hwritten.flush hn'
  have hall := hwrites.trans hflushed
  have hways := hmade.sameWays hsource.way?_eq_none
  have hsource' := hall.offers (hsource.congr hways (.inr ⟨n, hmade.here⟩))
  have hplace' := hall.offers
    (hplace.congr hways (by rw [hmade.elsewhere place hne.symm]; exact hplace.free))
  obtain ⟨fs', hrename, hmoved⟩ := hsource'.rename hplace' (hall.tidy hmade.tidy)
    ((hall.node? source).trans hmade.here) hne
  refine ⟨n, fs', ?_, ?_⟩
  · simp only [writeSnapshot, SnapshotWriter.create]
    rw [show target.withExtension SnapshotWriter.besideExtension = besideOf target from rfl,
      hcreate]
    simp only [SnapshotWriter.finish, hbeside, htarget, hrename]
  · exact {
      tidy := hmoved.tidy
      working := hmoved.working.trans (hall.working.trans hmade.working)
      taken := hmoved.taken
      content := by rw [FileSystem.content, hmoved.contents]; exact hcontent
      left := hmoved.left
      elsewhere := fun l hl hl' => by
        rw [hmoved.elsewhere l hl hl', hall.node?, hmade.elsewhere l hl]
      contents := fun m hm => by
        rw [← hmade.contents m hm, ← hall.contents m hm, FileSystem.content, hmoved.contents]
        rfl
      origin := hmade.origin
      length := by rw [hmoved.contents, hall.length]; exact hmade.length }

end KeyWatch
