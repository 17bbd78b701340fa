import Mathlib.Data.List.TakeWhile
import KeyWatch.Proofs.Files.Names
import KeyWatch.Proofs.Files.Places

/-!
# Directories and files

In a file system without links and pipes (`FileSystem.Plain`) a path that does not lead to a
directory, and does not ask for one, leads to a place for a file (`FileSystem.offers_of_slot`). So
where a file was made there is such a place (`FileSystem.offers_of_create`), and what a file was
moved to was one (`FileSystem.offers_of_rename`). The file beside a path, whose name is that of the
path with another extension, is at another place (`FileSystem.Offers.ne_withExtension`).

A change at one place for files (`FileSystem.ChangedAt`) is not seen from a path that does not lead
there.
-/

namespace KeyWatch

/-! ## Names with an extension -/

/-- A name has no extension by `splitName`, or it is a stem and an extension without a dot. -/
theorem Path.splitName_cases (name : Bytes) :
    splitName name = (name, none) ∨
      ∃ stem extension, name = stem ++ dot :: extension ∧ stem ≠ [] ∧ dot ∉ extension := by
  have hsplit : name.reverse.takeWhile (· != dot) ++ name.reverse.dropWhile (· != dot) =
      name.reverse := List.takeWhile_append_dropWhile
  have htail : dot ∉ name.reverse.takeWhile (· != dot) := by
    intro hmem
    have hdot := List.mem_takeWhile_imp hmem
    simp at hdot
  generalize htake : name.reverse.takeWhile (· != dot) = tail at hsplit htail
  cases hrest : name.reverse.dropWhile (· != dot) with
  | nil =>
    rw [hrest, List.append_nil] at hsplit
    refine .inl ?_
    simp only [splitName, htake, hsplit, List.drop_eq_nil_of_le (Nat.le_succ _)]
    exact if_pos (.inr rfl)
  | cons b rest =>
    have hb : b = dot := by
      have hhead := List.head?_dropWhile_not (· != dot) name.reverse
      rw [hrest] at hhead
      simpa using hhead
    rw [hrest, hb] at hsplit
    have hname : name = rest.reverse ++ dot :: tail.reverse := by
      rw [← List.reverse_reverse name, ← hsplit]
      simp
    have hdrop : name.reverse.drop (tail.length + 1) = rest := by
      rw [← hsplit, List.drop_append]
      simp
    by_cases hnil : rest = []
    · refine .inl ?_
      simp only [splitName, htake, hdrop, hnil]
      exact if_pos (.inr rfl)
    · refine .inr ⟨rest.reverse, tail.reverse, hname, by simpa using hnil, ?_⟩
      simpa using htail

namespace FileSystem

variable {fs fs' : FileSystem} {follow : Bool} {p q : Path} {l : Location}

/-! ## Places in a plain file system -/

/-- A file system of directories and files alone: no `Node.link` and no pipe stands anywhere. -/
def Plain (fs : FileSystem) : Prop :=
  ∀ l node, fs.node? l = some node → node = .directory ∨ ∃ n, node = .file n

/-- In a plain file system stands no link (`Plain`). -/
theorem Plain.not_link (h : fs.Plain) {target : Path} : fs.node? l ≠ some (.link target) := by
  intro hlink
  rcases h l _ hlink with hnode | ⟨n, hnode⟩
  · cases hnode
  · cases hnode

/-- Where there are no links it does not matter to `Walks` whether they are followed. -/
theorem Walks.of_plain {links : Nat} {here : Location} {way : List Bytes} (hplain : fs.Plain)
    (h : fs.Walks follow links here way l) (follow' : Bool) :
    fs.Walks follow' links here way l := by
  induction h with
  | done links here => exact .done links here
  | stay hdir _ ih => exact .stay hdir ih
  | leave hdir _ ih => exact .leave hdir ih
  | enter hdir hproper hentered _ ih => exact .enter hdir hproper hentered ih
  | through _ _ hlink => exact absurd hlink hplain.not_link
  | last hdir hproper hway =>
    refine .last hdir hproper (.inl ?_)
    rcases hway with hway | ⟨-, target, hlink⟩
    · exact hway
    · exact absurd hlink hplain.not_link

/-- A walk that does not end at a directory ends with a name that is looked up (`IsProper`). -/
theorem Walks.isProper_last {links : Nat} {here : Location} {way : List Bytes}
    (hplain : fs.Plain) (htidy : fs.Tidy) (h : fs.Walks follow links here way l)
    (hend : Node.way? (fs.node? l) = none) {front : List Bytes} {name : Bytes}
    (hway : way = front ++ [name]) : IsProper name := by
  have hdirectory : ∀ {l' : Location} {rest : List Bytes},
      fs.Walks follow links l' rest l → rest = [] → fs.node? l' ≠ some .directory := by
    rintro l' _ hwalks rfl hl'
    cases hwalks
    rw [hl'] at hend
    cases hend
  induction h generalizing front with
  | done => simp at hway
  | @stay _ _ _ rest hdir walks ih =>
    cases front with
    | nil => exact absurd hdir (hdirectory walks (List.cons_eq_cons.1 hway).2)
    | cons _ front => exact ih hend (List.cons_eq_cons.1 hway).2 hdirectory
  | @leave _ _ _ rest hdir walks ih =>
    cases front with
    | nil =>
      exact absurd (htidy.directory_dropLast hdir) (hdirectory walks (List.cons_eq_cons.1 hway).2)
    | cons _ front => exact ih hend (List.cons_eq_cons.1 hway).2 hdirectory
  | @enter _ _ _ _ rest _ _ hentered walks ih =>
    cases front with
    | nil => exact absurd hentered (hdirectory walks (List.cons_eq_cons.1 hway).2)
    | cons _ front => exact ih hend (List.cons_eq_cons.1 hway).2 hdirectory
  | through _ _ hlink => exact absurd hlink hplain.not_link
  | @last _ _ _ _ hproper _ =>
    cases front with
    | nil =>
      rw [← (List.cons_eq_cons.1 hway).1]
      exact hproper
    | cons _ front => simp at hway

/-- A place that `slot` finds holds what stands at its location. -/
theorem exists_of_slot {place : Place} (h : fs.slot follow p = .ok place) :
    ∃ l, place = ⟨l, fs.node? l, asksDirectory p⟩ :=
  have ⟨_, _, hplace⟩ := slot_eq_ok_iff.1 h
  ⟨place.location, hplace⟩

/-- A path that leads by `slot` to nothing or to a file, and does not ask for a directory, offers a
place for a file. -/
theorem offers_of_slot (hplain : fs.Plain) (htidy : fs.Tidy)
    (hslot : fs.slot follow p = .ok ⟨l, fs.node? l, false⟩)
    (hfree : fs.node? l = none ∨ ∃ n, fs.node? l = some (.file n)) : fs.Offers p l := by
  obtain ⟨hcheck, hwalks, hplace⟩ := slot_eq_ok_iff.1 hslot
  have hasks : asksDirectory p = false := (congrArg Place.asDirectory hplace).symm
  obtain ⟨before, part, hcut, hne⟩ := exists_cut_of_check hcheck hasks
  have hlast := hcut.getLast?_names hne
  obtain ⟨front, hnames⟩ := List.getLast?_eq_some_iff.1 hlast
  have hproper := hwalks.isProper_last hplain htidy (way?_of_free hfree) hnames
  refine ⟨?_, slot_eq_ok_iff.2 ⟨hcheck, hwalks.of_plain hplain false, hplace⟩, hfree⟩
  simp only [endsInName, hlast, Bool.and_eq_true, bne_iff_ne]
  exact ⟨hproper.ne_here, hproper.ne_above⟩

/-- Where a file was made by `create` the path offers a place for it (`Offers`). -/
theorem offers_of_create (hplain : fs.Plain) (htidy : fs.Tidy) {n : Nat}
    (h : fs.create p = .ok (n, fs')) : ∃ l, fs.Offers p l := by
  obtain ⟨place, hplace, h⟩ := exists_of_bind_eq_ok h
  obtain ⟨slot, hslot, hnode⟩ := exists_of_bind_eq_ok hplace
  obtain ⟨l, rfl⟩ := exists_of_slot hslot
  refine ⟨l, ?_⟩
  cases hfound : fs.node? l with
  | none =>
    simp only [hfound] at hnode
    cases hnode
    simp only at h
    split at h
    case isTrue => cases h
    case isFalse hasks =>
      rw [Bool.eq_false_iff.2 hasks] at hslot
      exact offers_of_slot hplain htidy hslot (.inl hfound)
  | some node =>
    rcases hplain l node hfound with rfl | ⟨m, rfl⟩
    · simp only [hfound] at hnode
      cases hnode
      cases h
    · simp only [hfound] at hnode
      split at hnode
      case isTrue => cases hnode
      case isFalse hasks =>
        rw [Bool.eq_false_iff.2 hasks] at hslot
        exact offers_of_slot hplain htidy hslot (.inr ⟨m, hfound⟩)

/-- A file does not take the place of a directory by `replace`. -/
theorem replace_directory {target : Location} (h : fs.node? target = some .directory) (n : Nat)
    (source : Location) : fs.replace (.file n) source target = .error .isDirectory := by
  unfold replace
  rw [h]

/-- What a file was moved to by `rename` is a place for a file (`Offers`). -/
theorem offers_of_rename (hplain : fs.Plain) (htidy : fs.Tidy) (hp : fs.Offers p l) {n : Nat}
    (hfile : fs.node? l = some (.file n)) (h : fs.rename p q = .ok fs') :
    ∃ target, fs.Offers q target := by
  obtain ⟨_, -, h⟩ := exists_of_bind_eq_ok h
  obtain ⟨_, -, h⟩ := exists_of_bind_eq_ok h
  split at h
  case isTrue => cases h
  case isFalse =>
    obtain ⟨old, hold, h⟩ := exists_of_bind_eq_ok h
    rw [hp.slot] at hold
    cases hold
    simp only [hfile] at h
    obtain ⟨new, hnew, h⟩ := exists_of_bind_eq_ok h
    obtain ⟨target, rfl⟩ := exists_of_slot hnew
    refine ⟨target, ?_⟩
    simp only at h
    split at h
    case isTrue => cases h
    case isFalse hasks =>
      have hasks : asksDirectory q = false := by simpa using hasks
      rw [hasks] at hnew
      refine offers_of_slot hplain htidy hnew ?_
      cases hfound : fs.node? target with
      | none => exact .inl rfl
      | some node =>
        rcases hplain target node hfound with rfl | ⟨m, rfl⟩
        · split at h
          case isTrue hl =>
            rw [← hl, hfile] at hfound
            cases hfound
          case isFalse =>
            split at h
            · cases h
            · split at h
              · cases h
              · rw [replace_directory hfound] at h
                cases h
        · exact .inr ⟨m, rfl⟩

/-- A file is removed by `unlink` from the place that the path offers, and nothing else is. -/
theorem Offers.unlink (h : fs.Offers p l) {n : Nat} (hfile : fs.node? l = some (.file n)) :
    fs.unlink p = .ok (fs.clear l) := by
  unfold FileSystem.unlink
  rw [h.slot, hfile]
  rfl

/-- What `clear` clears is gone, and at every other place stands what stood there. -/
theorem node?_clear (hl : l ≠ []) (l' : Location) :
    (fs.clear l).node? l' = if l' = l then none else fs.node? l' := by
  unfold node? clear
  by_cases hnil : l' = []
  · subst hnil
    rw [if_neg (Ne.symm hl)]
    rfl
  · have hempty : ¬l'.isEmpty = true := by simpa using hnil
    rw [if_neg hempty, if_neg hempty, OrderedMap.find?_erase]

/-- A file system in good order stays so with a new directory in it (`put`). -/
theorem Tidy.putDirectory (h : fs.Tidy) {d : Location} {name : Bytes}
    (hdir : fs.node? d = some .directory) : (fs.put (d ++ [name]) .directory).Tidy := by
  have hnode : ∀ l, (fs.put (d ++ [name]) .directory).node? l =
      if l = d ++ [name] then some .directory else fs.node? l := node?_put (by simp) .directory
  have hfile : ∀ {l n}, (fs.put (d ++ [name]) .directory).node? l = some (.file n) →
      fs.node? l = some (.file n) := by
    intro l n hl
    rw [hnode] at hl
    split at hl
    case isTrue => cases hl
    case isFalse => exact hl
  have hdirectory : ∀ {l}, fs.node? l = some .directory →
      (fs.put (d ++ [name]) .directory).node? l = some .directory := by
    intro l hl
    rw [hnode]
    split
    · rfl
    · exact hl
  refine ⟨fun l name' hsome => ?_, fun l n hl => h.numbered l n (hfile hl),
    fun l l' n hl hl' => h.single l l' n (hfile hl) (hfile hl')⟩
  rw [hnode] at hsome
  split at hsome
  case isTrue heq =>
    obtain ⟨rfl, -⟩ := List.append_inj' heq rfl
    exact hdirectory hdir
  case isFalse => exact hdirectory (h.held l name' hsome)

/-- A plain file system stays so with a new directory in it (`put`). -/
theorem Plain.putDirectory (h : fs.Plain) (hl : l ≠ []) : (fs.put l .directory).Plain := by
  intro l' node hnode
  rw [node?_put hl] at hnode
  split at hnode
  case isTrue => exact .inl (Option.some.inj hnode).symm
  case isFalse => exact h l' node hnode

/-- The `bare` file system is plain. -/
theorem plain_bare : bare.Plain := by
  have hroot : Plain ⟨.empty, [], bare.working⟩ := by
    intro l node hnode
    unfold node? at hnode
    split at hnode
    case isTrue => exact .inl (Option.some.inj hnode).symm
    case isFalse => cases hnode
  have hwork := hroot.putDirectory (l := [Utf8.encode "work"]) (by simp)
  exact hwork.putDirectory (l := [Utf8.encode "tmp"]) (by simp)

/-! ## The file beside another -/

/-- The path beside another, with an extension in place of its own (`Path.withExtension`), does not
lead to the same place, if there is a dot in the extension. -/
theorem Offers.ne_withExtension {extension : String} {l' : Location} (h : fs.Offers p l)
    (h' : fs.Offers (p.withExtension extension) l') (htidy : fs.Tidy)
    (hdot : Path.dot ∈ Utf8.encode extension) (hslash : Path.slash ∉ Utf8.encode extension) :
    l' ≠ l := by
  rintro rfl
  obtain ⟨before, part, hcut, hne, hhere, habove⟩ := h.exists_cut
  have hname := hcut.fileName?_eq hne hhere habove
  have hlast := (h'.getLast?_names htidy).symm.trans
    ((h.getLast?_names htidy).trans (hcut.getLast?_names hne))
  have hmore : Path.slash ∉ Path.dot :: Utf8.encode extension :=
    List.not_mem_cons_of_ne_of_not_mem nofun hslash
  rcases Path.splitName_cases part with hnone | ⟨stem, old, rfl, hstem, hold⟩
  · have hbeside : p.withExtension extension = ⟨p.bytes ++ Path.dot :: Utf8.encode extension⟩ := by
      rw [Path.withExtension, Path.extension?, hname, Option.bind_some, hnone]
      simp only [Path.addExtension, Path.fileStem?, hname, Option.map_some, hnone,
        hcut.splitLast_eq hne hhere, ← hcut.eq]
    rw [hbeside, (hcut.append hmore).getLast?_names (p := ⟨_⟩) (by simp)] at hlast
    simp at hlast
  · have hextension : p.extension? = some old := by
      rw [Path.extension?, hname, Option.bind_some, Path.splitName_append hstem hold habove]
    have hpart : Path.slash ∉ stem := fun hmem => hcut.part (List.mem_append_left _ hmem)
    by_cases hdots : stem = Path.here
    · -- a stem of a single dot leaves the directory above, and that takes no extension
      subst hdots
      have habove : Path.Cut (before ++ Path.above) before Path.above :=
        ⟨rfl, by decide, hcut.before⟩
      have htake : p.bytes.take (p.bytes.length - old.length) = before ++ Path.above := by
        have hbytes : p.bytes = (before ++ Path.above) ++ old := by
          rw [hcut.eq, List.append_assoc]
          rfl
        rw [hbytes, List.length_append, Nat.add_sub_cancel, List.take_left' rfl]
      have hbeside : p.withExtension extension = ⟨before ++ Path.above⟩ := by
        have hlast := habove.splitLast_eq (p := ⟨_⟩) (by decide) (by decide)
        simp only [Path.withExtension, hextension, htake, Path.addExtension, Path.fileStem?,
          Path.fileName?, hlast]
        rfl
      have hends := h'.name
      simp only [hbeside, endsInName, habove.getLast?_names (p := ⟨_⟩) (by decide)] at hends
      cases hends
    · have hnew : Path.Cut (before ++ stem ++ Path.dot :: Utf8.encode extension) before
          (stem ++ Path.dot :: Utf8.encode extension) :=
        ⟨List.append_assoc .., fun hmem => (List.mem_append.1 hmem).elim hpart hmore, hcut.before⟩
      rw [Path.withExtension_append hcut hold hstem hdots,
        hnew.getLast?_names (p := ⟨_⟩) (by simp)] at hlast
      have hsame := List.append_cancel_left (Option.some.inj hlast)
      exact hold ((List.cons_eq_cons.1 hsame).2 ▸ hdot)

/-! ## A change at one place -/

/-- A file system in which nothing changed but what stands at a place for files, and the content of
the file there (`Made`, `WritesOnly`). -/
structure ChangedAt (fs fs' : FileSystem) (l : Location) (n : Nat) : Prop where
  working : fs'.working = fs.working
  origin : fs.node? l = some (.file n) ∨ fs.contents.length ≤ n
  here : fs'.node? l = none ∨ fs'.node? l = some (.file n)
  elsewhere : ∀ l' ≠ l, fs'.node? l' = fs.node? l'
  contents : ∀ m ≠ n, fs'.content m = fs.content m

namespace ChangedAt

variable {fs'' : FileSystem} {n : Nat}

/-- A file that was `Made` is a change at its place. -/
theorem of_made (h : Made fs fs' l n) : fs.ChangedAt fs' l n where
  working := h.working
  origin := h.origin
  here := .inr h.here
  elsewhere := h.elsewhere
  contents := h.contents

/-- What is written into the file of a change is still a change at its place (`WritesOnly`). -/
theorem writesOnly (h : fs.ChangedAt fs' l n) (hw : fs'.WritesOnly (· = n) fs'') :
    fs.ChangedAt fs'' l n where
  working := hw.working.trans h.working
  origin := h.origin
  here := by rw [hw.node?]; exact h.here
  elsewhere l' hl' := (hw.node? l').trans (h.elsewhere l' hl')
  contents m hm := (hw.contents m hm).trans (h.contents m hm)

/-- A plain file system stays so by a change at one place (`Plain`). -/
theorem plain (h : fs.ChangedAt fs' l n) (hplain : fs.Plain) : fs'.Plain := by
  intro l' node hnode
  by_cases hl : l' = l
  · subst hl
    rcases h.here with hnone | hfile
    · rw [hnone] at hnode
      cases hnode
    · rw [hfile] at hnode
      exact .inr ⟨n, (Option.some.inj hnode).symm⟩
  · exact hplain l' node ((h.elsewhere l' hl).symm.trans hnode)

/-- To clear the place of a change by `clear` is still a change at that place. -/
theorem clear (h : fs.ChangedAt fs' l n) (hl : l ≠ []) : fs.ChangedAt (fs'.clear l) l n where
  working := h.working
  origin := h.origin
  here := .inl (by rw [node?_clear hl, if_pos rfl])
  elsewhere l' hl' := by rw [node?_clear hl, if_neg hl']; exact h.elsewhere l' hl'
  contents := h.contents

/-- A change at a place where no walk goes on leaves the ways as they are (`SameWays`). -/
theorem sameWays (h : fs.ChangedAt fs' l n) (hway : Node.way? (fs.node? l) = none) :
    fs.SameWays fs' where
  working := h.working
  ways l' := by
    by_cases hl : l' = l
    · rw [hl, hway]
      rcases h.here with hnone | hfile
      · rw [hnone]
        rfl
      · rw [hfile]
        rfl
    · rw [h.elsewhere l' hl]

end ChangedAt

/-- Where the ways are the same they are so either way round (`SameWays`). -/
theorem SameWays.symm (h : fs.SameWays fs') : fs'.SameWays fs :=
  ⟨h.working.symm, fun l => (h.ways l).symm⟩

/-- What a path leads to by `find?` stands at its place; but a path that asks for a directory leads
to nothing else. -/
theorem find?_of_slot {asks : Bool} (h : fs.slot true p = .ok ⟨l, fs.node? l, asks⟩) :
    fs.find? p = if asks ∧ fs.node? l ≠ some .directory then none else fs.node? l := by
  have hplace : fs.slot (true || asksDirectory p) p = .ok ⟨l, fs.node? l, asks⟩ := h
  unfold find? place
  rw [hplace]
  simp only [bind, Except.bind]
  cases hfound : fs.node? l with
  | none =>
    rw [ite_self]
    rfl
  | some node =>
    cases node with
    | directory =>
      have hnot : ¬(asks = true ∧ some Node.directory ≠ some Node.directory) :=
        fun hand => hand.2 rfl
      rw [if_neg hnot]
      rfl
    | file | fifo | link =>
      cases asks with
      | true => rfl
      | false => rfl

/-- A path that has no place by `slot` leads to nothing by `find?`. -/
theorem find?_of_error {fault : FileFault} (h : fs.slot true p = .error fault) :
    fs.find? p = none := by
  have hplace : fs.slot (true || asksDirectory p) p = .error fault := h
  unfold find? place
  rw [hplace]
  rfl

/-- Where the ways are the same, paths lead by `slot` to the same places. -/
theorem SameWays.slot {place : Place} (h : fs.SameWays fs')
    (hslot : fs.slot follow p = .ok place) :
    fs'.slot follow p =
      .ok ⟨place.location, fs'.node? place.location, asksDirectory p⟩ := by
  obtain ⟨hcheck, hwalks, -⟩ := slot_eq_ok_iff.1 hslot
  exact slot_eq_ok_iff.2 ⟨hcheck, h.working ▸ h.walks hwalks, rfl⟩

namespace ChangedAt

variable {n : Nat}

/-- A path that does not lead to the place of a change leads by `find?` to what it led to, and a
file there is at another place. -/
theorem find?_eq (h : fs.ChangedAt fs' l n) (hplain : fs.Plain) (htidy : fs.Tidy)
    (hfree : fs.node? l = none ∨ ∃ m, fs.node? l = some (.file m)) (hother : ¬fs.Offers p l) :
    fs'.find? p = fs.find? p ∧
      ∀ m, fs.find? p = some (.file m) → ∃ l' ≠ l, fs.node? l' = some (.file m) := by
  have hways := h.sameWays (way?_of_free hfree)
  cases hslot : fs.slot true p with
  | error fault =>
    rw [find?_of_error hslot]
    refine ⟨?_, nofun⟩
    cases hslot' : fs'.slot true p with
    | error fault' => exact find?_of_error hslot'
    | ok place => cases hslot.symm.trans (hways.symm.slot hslot')
  | ok place =>
    have hslot' := hways.slot hslot
    obtain ⟨l', rfl⟩ := exists_of_slot hslot
    rw [find?_of_slot hslot, find?_of_slot hslot']
    by_cases hl : l' = l
    · -- the path leads to the place, but it asks for a directory
      subst hl
      have hasks : asksDirectory p = true := by
        refine Bool.of_not_eq_false fun hasks => hother ?_
        rw [hasks] at hslot
        exact offers_of_slot hplain htidy hslot hfree
      have hnot : fs.node? l' ≠ some .directory := by
        rcases hfree with hnone | ⟨m, hfile⟩ <;> simp [*]
      have hnot' : fs'.node? l' ≠ some .directory := by
        rcases h.here with hnone | hfile <;> simp [*]
      rw [if_pos ⟨hasks, hnot'⟩, if_pos ⟨hasks, hnot⟩]
      exact ⟨rfl, nofun⟩
    · rw [h.elsewhere l' hl]
      refine ⟨rfl, fun m hm => ⟨l', hl, ?_⟩⟩
      split at hm
      case isTrue => cases hm
      case isFalse => exact hm

/-- A path that does not lead to the place of a change leads by `contentAt?` to the content that it
led to. -/
theorem contentAt?_eq (h : fs.ChangedAt fs' l n) (hplain : fs.Plain) (htidy : fs.Tidy)
    (hfree : fs.node? l = none ∨ ∃ m, fs.node? l = some (.file m)) (hother : ¬fs.Offers p l) :
    fs'.contentAt? p = fs.contentAt? p := by
  obtain ⟨hfind, hfile⟩ := h.find?_eq hplain htidy hfree hother
  unfold contentAt?
  rw [hfind]
  split
  case h_1 m hm =>
    obtain ⟨l', hl', hnode⟩ := hfile m hm
    refine congrArg some (h.contents m ?_)
    rintro rfl
    rcases h.origin with hn | hnew
    · exact hl' (htidy.single l' l m hnode hn)
    · exact absurd (htidy.numbered l' m hnode) (Nat.not_lt.2 hnew)
  case h_2 => rfl

end ChangedAt

end FileSystem

end KeyWatch
