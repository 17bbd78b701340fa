import KeyWatch.Job.Runner
import KeyWatch.Proofs.Backup.Published
import KeyWatch.Proofs.Files.Names

/-!
# The paths of a job's files

A job writes its output, its numbered backups, and each of these first at a path beside its own. If
all these paths lead to free places, then to different ones (`Job.nodup_locate`): the three kinds of
paths end in different bytes, and the numbers of the backups are part of their names.
-/

namespace KeyWatch

namespace Job

/-- The paths at which backups are written: their own, and those beside them (`besideOf`). -/
def written (targets : List Path) : List Path := targets ++ targets.map besideOf

/-- The paths of a job's backups up to a number, each by `backupPath`. -/
def backupPaths (directory : Path) (name : String) (count : Nat) : List Path :=
  (List.range count).map fun n => backupPath directory name (n + 1)

/-- A number is spelt with digits alone, in bytes by `Utf8.encode`. -/
theorem digit_of_mem {n : Nat} {b : UInt8} (h : b ∈ Utf8.encode (toString n)) :
    48 ≤ b.toNat ∧ b.toNat ≤ 57 := by
  obtain ⟨c, hc, hbyte⟩ := List.mem_flatMap.1 h
  have hdigit : c.isDigit = true := by
    rw [show (toString n).toList = Nat.toDigits 10 n from Nat.toList_repr] at hc
    exact Nat.isDigit_of_mem_toDigits (by decide) (by decide) hc
  have hrange : 48 ≤ c.val.toNat ∧ c.val.toNat ≤ 57 := by
    simpa [Char.isDigit, UInt32.le_iff_toNat_le] using hdigit
  have hascii : String.utf8EncodeChar c = [UInt8.ofNat c.val.toNat] := by
    rw [String.utf8EncodeChar, if_pos (by omega)]
  rw [hascii, List.mem_singleton] at hbyte
  rwa [hbyte, UInt8.toNat_ofNat_of_lt' (show c.val.toNat < 256 by omega)]

/-- The byte before the number of a backup (`numbering`). -/
def dash : UInt8 := 0x2D

/-- The number in the name of a backup, with the `dash` before it. -/
def numbering (n : Nat) : Bytes := Utf8.encode ("-" ++ toString n)

/-- A `numbering` is a dash and the digits of the number. -/
theorem numbering_eq (n : Nat) : numbering n = dash :: Utf8.encode (toString n) := by
  rw [numbering, Utf8.encode_append]
  rfl

/-- No slash stands in a `numbering`. -/
theorem slash_notMem_numbering (n : Nat) : Path.slash ∉ numbering n := by
  rw [numbering_eq, List.mem_cons]
  rintro (hmem | hmem)
  · cases hmem
  · exact absurd (digit_of_mem hmem) (by decide)

/-- No `dash` stands among the digits of a number. -/
theorem dash_notMem_digits (n : Nat) : dash ∉ Utf8.encode (toString n) :=
  fun hmem => absurd (digit_of_mem hmem) (by decide)

/-- Different numbers have a different `numbering`. -/
theorem numbering_injective {m n : Nat} (h : numbering m = numbering n) : m = n := by
  rw [numbering_eq, numbering_eq] at h
  have htexts := congrArg Utf8.decode (List.cons_eq_cons.1 h).2
  rw [Utf8.decode_encode, Utf8.decode_encode] at htexts
  have hdigits : Nat.toDigits 10 m = Nat.toDigits 10 n := by
    rw [← Nat.toList_repr, ← Nat.toList_repr]
    exact congrArg String.toList (Except.ok.inj htexts)
  rw [← Nat.ofDigitChars_ten_toDigits (n := m), hdigits, Nat.ofDigitChars_ten_toDigits]

/-- The paths of a job's backups (`backupPath`) are spelt alike up to the number. -/
theorem exists_front (directory : Path) (name : String) : ∃ front : Bytes, ∀ n,
    (backupPath directory name n).bytes =
      front ++ (numbering n ++ Path.dot :: Utf8.encode "bck") := by
  have hname : ∀ n : Nat, Utf8.encode (name ++ "-" ++ toString n ++ ".bck") =
      Utf8.encode name ++ (numbering n ++ Path.dot :: Utf8.encode "bck") := by
    intro n
    rw [numbering, Utf8.encode_append, Utf8.encode_append, Utf8.encode_append, Utf8.encode_append]
    simp only [List.append_assoc]
    rfl
  have habsolute : ∀ n : Nat,
      (Path.mk (Utf8.encode name ++ (numbering n ++ Path.dot :: Utf8.encode "bck"))).isAbsolute =
        ((Utf8.encode name).head? == some Path.slash) := by
    intro n
    cases Utf8.encode name with
    | nil =>
      rw [numbering, Utf8.encode_append]
      rfl
    | cons b rest => rfl
  unfold backupPath Path.join
  simp only [Path.ofString, hname, habsolute]
  split
  case isTrue => exact ⟨Utf8.encode name, fun _ => rfl⟩
  case isFalse =>
    split
    case h_1 => exact ⟨Utf8.encode name, fun _ => rfl⟩
    case h_2 b _ =>
      by_cases hb : b = Path.slash
      · refine ⟨directory.bytes ++ Utf8.encode name, fun n => ?_⟩
        rw [if_pos hb, List.append_assoc]
      · refine ⟨directory.bytes ++ Path.slash :: Utf8.encode name, fun n => ?_⟩
        rw [if_neg hb, List.append_assoc]
        rfl

/-- The path beside a backup (`besideOf`) is spelt as the backup's, but for the extension. -/
theorem besideOf_eq {target : Path} {front : Bytes} {n : Nat}
    (h : target.bytes = front ++ (numbering n ++ Path.dot :: Utf8.encode "bck")) :
    (besideOf target).bytes = front ++ (numbering n ++ Path.dot :: Utf8.encode "bck.tmp") := by
  obtain ⟨before, part, hcut⟩ := Path.Cut.exists_cut front
  have hslash : Path.slash ∉ numbering n ++ Path.dot :: Utf8.encode "bck" := by
    rw [List.mem_append]
    rintro (hmem | hmem)
    · exact slash_notMem_numbering n hmem
    · revert hmem
      decide
  have htarget : Path.Cut target.bytes before
      (part ++ numbering n ++ Path.dot :: Utf8.encode "bck") := by
    rw [h, List.append_assoc]
    exact hcut.append hslash
  have hdash : dash ∈ part ++ numbering n := by
    rw [numbering_eq]
    exact List.mem_append_right _ List.mem_cons_self
  rw [besideOf, SnapshotWriter.besideExtension,
    Path.withExtension_append htarget (by decide) (List.ne_nil_of_mem hdash) (fun he => ?_),
    hcut.eq]
  · simp only [List.append_assoc]
  · rw [he] at hdash
    cases List.mem_singleton.1 hdash

variable {fs : FileSystem} {directory p : Path} {name : String} {count : Nat}

/-- Places of backups, or those beside them, are different for different numbers, as the last names
of their paths are (`numbering`). -/
theorem nodup_of_numbering {f : Nat → Path} {front extension : Bytes} (htidy : fs.Tidy)
    (hf : ∀ n, (f n).bytes = front ++ (numbering n ++ Path.dot :: extension))
    (hslash : Path.slash ∉ extension) (hfree : ∀ n < count, fs.IsFree (f (n + 1))) :
    ((List.range count).map fun n => fs.locate (f (n + 1))).Nodup := by
  have hname : ∀ n, Path.slash ∉ numbering n ++ Path.dot :: extension := by
    intro n hmem
    rcases List.mem_append.1 hmem with hmem | hmem
    · exact slash_notMem_numbering n hmem
    · rcases List.mem_cons.1 hmem with heq | hmem
      · cases heq
      · exact hslash hmem
  refine List.Nodup.map_on (fun m hm n hn heq => ?_) List.nodup_range
  have hm' := hfree m (List.mem_range.1 hm)
  have hn' := hfree n (List.mem_range.1 hn)
  rw [FileSystem.IsFree, heq] at hm'
  have hsame := hm'.eq_of_append hn' htidy (hf _) (hf _) (hname _) (hname _) (by simp) (by simp)
  exact Nat.succ.inj (numbering_injective (List.append_cancel_right hsame))

/-- If all files of a job can be written (`FileSystem.IsFree`), they have different places: the
three kinds of paths end in different bytes, and those of one kind differ in the number. -/
theorem nodup_locate (htidy : fs.Tidy)
    (hfree : ∀ q ∈ p.withExtension "out" :: written (backupPaths directory name count),
      fs.IsFree q) :
    ((p.withExtension "out" :: written (backupPaths directory name count)).map
      fs.locate).Nodup := by
  obtain ⟨front, hfront⟩ := exists_front directory name
  have hout := hfree _ List.mem_cons_self
  have hbackup : ∀ n < count, fs.IsFree (backupPath directory name (n + 1)) := fun n hn =>
    hfree _ (List.mem_cons_of_mem _ (List.mem_append_left _
      (List.mem_map.2 ⟨n, List.mem_range.2 hn, rfl⟩)))
  have hbeside : ∀ n < count, fs.IsFree (besideOf (backupPath directory name (n + 1))) :=
    fun n hn => hfree _ (List.mem_cons_of_mem _ (List.mem_append_right _
      (List.mem_map_of_mem (List.mem_map.2 ⟨n, List.mem_range.2 hn, rfl⟩))))
  have hslash : Path.slash ∉ Utf8.encode "bck" := by decide
  have hslash' : Path.slash ∉ Utf8.encode "bck.tmp" := by decide
  -- the three kinds of paths end in different bytes
  have hout' : (p.withExtension "out").bytes.getLast? = some 0x74 := hout.getLast?_withExtension
  have hbackup' : ∀ n, (backupPath directory name n).bytes.getLast? = some 0x6B := by
    intro n
    rw [hfront, ← List.append_assoc, List.getLast?_append_of_ne_nil _ (List.cons_ne_nil _ _)]
    rfl
  have hbeside' : ∀ n, (besideOf (backupPath directory name n)).bytes.getLast? = some 0x70 := by
    intro n
    rw [besideOf_eq (hfront n), ← List.append_assoc,
      List.getLast?_append_of_ne_nil _ (List.cons_ne_nil _ _)]
    rfl
  have hapart : ∀ {q q' : Path} {b b' : UInt8}, fs.IsFree q → fs.IsFree q' →
      q.bytes.getLast? = some b → q'.bytes.getLast? = some b' → b ≠ b' →
      fs.locate q ≠ fs.locate q' := by
    intro q q' b b' hq hq' hb hb' hne
    refine hq.ne_of_getLast? hq' htidy ?_
    rw [hb, hb']
    exact fun he => hne (Option.some.inj he)
  have hbackups : (backupPaths directory name count).map fs.locate =
      (List.range count).map fun n => fs.locate (backupPath directory name (n + 1)) := by
    simp only [backupPaths, List.map_map, Function.comp_def]
  have hbesides : ((backupPaths directory name count).map besideOf).map fs.locate =
      (List.range count).map fun n => fs.locate (besideOf (backupPath directory name (n + 1))) := by
    simp only [backupPaths, List.map_map, Function.comp_def]
  rw [List.map_cons, written, List.map_append, hbackups, hbesides, List.nodup_cons,
    List.nodup_append]
  refine ⟨fun hmem => ?_, ?_, ?_, fun l hl l' hl' => ?_⟩
  · rcases List.mem_append.1 hmem with hmem | hmem
    · obtain ⟨n, hn, heq⟩ := List.mem_map.1 hmem
      exact hapart (hbackup n (List.mem_range.1 hn)) hout (hbackup' _) hout' (by decide) heq
    · obtain ⟨n, hn, heq⟩ := List.mem_map.1 hmem
      exact hapart (hbeside n (List.mem_range.1 hn)) hout (hbeside' _) hout' (by decide) heq
  · exact nodup_of_numbering (f := backupPath directory name) htidy hfront hslash hbackup
  · exact nodup_of_numbering (f := fun n => besideOf (backupPath directory name n)) htidy
      (fun n => besideOf_eq (hfront n)) hslash' hbeside
  · obtain ⟨m, hm, rfl⟩ := List.mem_map.1 hl
    obtain ⟨n, hn, rfl⟩ := List.mem_map.1 hl'
    exact hapart (hbackup m (List.mem_range.1 hm)) (hbeside n (List.mem_range.1 hn)) (hbackup' _)
      (hbeside' _) (by decide)

end Job

end KeyWatch
