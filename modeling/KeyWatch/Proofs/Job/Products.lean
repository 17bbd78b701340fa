import KeyWatch.Proofs.Job.Paths

/-!
# The files of different jobs

A job file leads to further files: the job's output, its numbered backups, and those that are
written beside these first (`Job.Product`). Their names are made from the job file's own
(`Job.Product.name`): the output's from the bytes, those of the backups from the text that is read
from them. What follows can always be told from the rest, since the number of a backup stands behind
the last dash and the extensions end in different bytes. So products have the same name only if they
are of one kind and number and the jobs' names read alike (`Job.Product.name_inj`).

A path leads to a place of its last name, so the files of one job are all apart, and so are those of
two jobs of a directory unless their names read alike (`Job.apart_products`). Names that are text
are read as they are. Others may read alike, and then the jobs take each other's backups
(`Job.backups_meet`).
-/

namespace KeyWatch

/-- Paths are apart if they are different and never lead to the same place for a file
(`FileSystem.Offers`). -/
structure Path.Apart (p q : Path) : Prop where
  ne : p ≠ q
  places : ∀ (fs : FileSystem) (l l' : Location), fs.Tidy → fs.Offers p l → fs.Offers q l' → l ≠ l'

/-- Paths whose last names are different are apart (`Path.Apart`). -/
theorem Path.apart_of_names {p q : Path}
    (h : (FileSystem.names p).getLast? ≠ (FileSystem.names q).getLast?) : p.Apart q where
  ne := by
    rintro rfl
    exact h rfl
  places fs l l' htidy hp hq := by
    rintro rfl
    exact h ((hp.getLast?_names htidy).symm.trans (hq.getLast?_names htidy))

namespace Job

/-- The bytes of a job file's name without its extension (`Path.fileStem?`). -/
def stemOf (p : Path) : Bytes := p.fileStem?.getD []

/-- The name under which a job file is run: the text that is read from its bytes, by
`Utf8.lossy`. -/
def nameOf (p : Path) : String := Utf8.lossy (stemOf p)

/-- What a job makes: its output, its backups by their numbers, and the files beside these
(`besideOf`). -/
inductive Product where
  | output
  | backup (number : Nat)
  | beside (number : Nat)
  deriving DecidableEq, Repr

namespace Product

/-- The path of what a job file makes, as the job's `State` has it. -/
def path (p : Path) : Product → Path
  | output => p.withExtension "out"
  | backup n => (State.start (nameOf p) (directoryOf p)).backupPath n
  | beside n => besideOf ((State.start (nameOf p) (directoryOf p)).backupPath n)

/-- The name of what a job file makes, from the stem of its own name; the output's keeps the bytes,
and those of the backups go through `Utf8.lossy`. The output of a job whose stem is a single dot
would go to the directory above. -/
def name (stem : Bytes) : Product → Bytes
  | output => if stem = Path.here then Path.above else stem ++ Path.dot :: Utf8.encode "out"
  | backup n => Utf8.encode (Utf8.lossy stem) ++ numbering n ++ Path.dot :: Utf8.encode "bck"
  | beside n => Utf8.encode (Utf8.lossy stem) ++ numbering n ++ Path.dot :: Utf8.encode "bck.tmp"

/-- What is written while a job runs goes to its products, the paths of which are the `path` of
each. -/
theorem paths_eq {p : Path} {stem : Bytes} (h : p.fileStem? = some stem) (count : Nat) :
    p.withExtension "out" :: written (backupPaths (directoryOf p) (Utf8.lossy stem) count) =
      (output :: ((List.range count).map fun n => backup (n + 1)) ++
        (List.range count).map fun n => beside (n + 1)).map (path p) := by
  have hname : nameOf p = Utf8.lossy stem := by rw [nameOf, stemOf, h, Option.getD_some]
  simp only [written, backupPaths, List.map_cons, List.cons_append, List.map_append, List.map_map,
    Function.comp_def, path, State.backupPath, State.start, hname]

end Product

/-! ## The names tell the products apart -/

/-- A row can be cut at the last occurrence of an item in just one way. -/
theorem append_cons_inj {α : Type} {x : α} {front front' back back' : List α} (hback : x ∉ back)
    (hback' : x ∉ back') (h : front ++ x :: back = front' ++ x :: back') :
    front = front' ∧ back = back' := by
  -- if the fronts differ, the item would stand in one of the backs
  have hshort : ∀ {middle : List α} {back back' : List α}, x ∉ back →
      x :: back = middle ++ x :: back' → middle = [] := by
    intro middle back back' hback hmiddle
    cases middle with
    | nil => rfl
    | cons y middle =>
      rw [(List.cons_eq_cons.1 hmiddle).2] at hback
      exact absurd (List.mem_append_right middle List.mem_cons_self) hback
  rcases List.append_eq_append_iff.1 h with ⟨middle, rfl, hmiddle⟩ | ⟨middle, rfl, hmiddle⟩
  · obtain rfl := hshort hback hmiddle
    exact ⟨(List.append_nil front).symm, (List.cons_eq_cons.1 hmiddle).2⟩
  · obtain rfl := hshort hback' hmiddle
    exact ⟨List.append_nil front', (List.cons_eq_cons.1 hmiddle).2.symm⟩

/-- Backups of jobs have the same name only if the jobs' names read alike and the numbers are the
same: the number stands behind the last `dash`. -/
theorem backupName_inj {text text' : String} {n n' : Nat}
    (h : Utf8.encode text ++ numbering n = Utf8.encode text' ++ numbering n') :
    text = text' ∧ n = n' := by
  rw [numbering_eq, numbering_eq] at h
  obtain ⟨htext, hdigits⟩ := append_cons_inj (dash_notMem_digits n) (dash_notMem_digits n') h
  have hdecoded := congrArg Utf8.decode htext
  rw [Utf8.decode_encode, Utf8.decode_encode] at hdecoded
  refine ⟨Except.ok.inj hdecoded, numbering_injective ?_⟩
  rw [numbering_eq, numbering_eq, hdigits]

namespace Product

variable {stem stem' : Bytes}

/-- Where the output would go if the stem is a single dot (`Path.above`), no name with an extension
leads. -/
theorem append_out_ne_above (stem : Bytes) :
    Path.above ≠ stem ++ Path.dot :: Utf8.encode "out" := by
  intro h
  have hlast := congrArg List.getLast? h
  rw [List.getLast?_append_of_ne_nil _ (List.cons_ne_nil _ _)] at hlast
  exact absurd hlast (by decide)

/-- Outputs have the same `name` only if the stems are the same. -/
theorem name_output_inj (h : name stem .output = name stem' .output) : stem = stem' := by
  rw [name, name] at h
  split at h
  case isTrue hstem =>
    split at h
    case isTrue hstem' => rw [hstem, hstem']
    case isFalse => exact absurd h (append_out_ne_above stem')
  case isFalse =>
    split at h
    case isTrue => exact absurd h.symm (append_out_ne_above stem)
    case isFalse => exact List.append_cancel_right h

/-- The bytes in which the `name` of a product may end; those of the three kinds are different. -/
def lastBytes : Product → Bytes
  | output => [Path.dot, 0x74]
  | backup _ => [0x6B]
  | beside _ => [0x70]

/-- The `name` of a product ends in one of its `lastBytes`. -/
theorem exists_getLast?_name (stem : Bytes) (a : Product) :
    ∃ b ∈ a.lastBytes, (a.name stem).getLast? = some b := by
  cases a with
  | output =>
    rw [name]
    split
    · exact ⟨Path.dot, List.mem_cons_self, rfl⟩
    · refine ⟨0x74, List.mem_cons_of_mem _ List.mem_cons_self, ?_⟩
      exact List.getLast?_append_of_ne_nil _ (List.cons_ne_nil _ _)
  | backup n =>
    exact ⟨0x6B, List.mem_cons_self, List.getLast?_append_of_ne_nil _ (List.cons_ne_nil _ _)⟩
  | beside n =>
    exact ⟨0x70, List.mem_cons_self, List.getLast?_append_of_ne_nil _ (List.cons_ne_nil _ _)⟩

/-- Products have the same `name` only if both are outputs of jobs of one name, or backups of one
number of jobs whose names read alike, or files beside these. -/
theorem name_inj {a b : Product} (h : a.name stem = b.name stem') :
    a = b ∧ (a = .output → stem = stem') ∧ (a ≠ .output → Utf8.lossy stem = Utf8.lossy stem') := by
  have hcommon : ∃ x ∈ a.lastBytes, x ∈ b.lastBytes := by
    obtain ⟨x, hx, hlast⟩ := exists_getLast?_name stem a
    obtain ⟨y, hy, hlast'⟩ := exists_getLast?_name stem' b
    rw [h, hlast'] at hlast
    exact ⟨x, hx, Option.some.inj hlast ▸ hy⟩
  cases a with
  | output =>
    cases b with
    | output => exact ⟨rfl, fun _ => name_output_inj h, fun hne => absurd rfl hne⟩
    | backup | beside => simp [lastBytes, Path.dot] at hcommon
  | backup m =>
    cases b with
    | backup n =>
      obtain ⟨htext, rfl⟩ := backupName_inj (List.append_cancel_right h)
      exact ⟨rfl, nofun, fun _ => htext⟩
    | output | beside => simp [lastBytes, Path.dot] at hcommon
  | beside m =>
    cases b with
    | beside n =>
      obtain ⟨htext, rfl⟩ := backupName_inj (List.append_cancel_right h)
      exact ⟨rfl, nofun, fun _ => htext⟩
    | output | backup => simp [lastBytes, Path.dot] at hcommon

end Product

/-! ## The products of a job file -/

/-- A name that a directory can list: it holds no slash (`Path.slash`), and it is not that of the
directory itself. -/
structure IsName (name : Bytes) : Prop where
  slash : Path.slash ∉ name
  ne_nil : name ≠ []
  ne_here : name ≠ Path.here

/-- The names of products hold no slash if the job's name holds none: `Utf8.lossy` makes none. -/
theorem Product.slash_notMem_name {stem : Bytes} (h : Path.slash ∉ stem) (a : Product) :
    Path.slash ∉ a.name stem := by
  have hlossy : Path.slash ∉ Utf8.encode (Utf8.lossy stem) := by
    intro hmem
    rcases Utf8.mem_of_mem_encode_lossy hmem with hmem | hmem
    · exact h hmem
    · revert hmem
      decide
  have hextension : Path.slash ∉ Path.dot :: Utf8.encode "out" ∧
      Path.slash ∉ Path.dot :: Utf8.encode "bck" ∧
      Path.slash ∉ Path.dot :: Utf8.encode "bck.tmp" := by decide
  cases a with
  | output =>
    rw [name]
    split
    · decide
    · simp only [List.mem_append, h, hextension.1, or_self, not_false_eq_true]
  | backup n =>
    simp only [name, List.mem_append, hlossy, slash_notMem_numbering, hextension.2.1, or_self,
      not_false_eq_true]
  | beside n =>
    simp only [name, List.mem_append, hlossy, slash_notMem_numbering, hextension.2.2, or_self,
      not_false_eq_true]

/-- The `name` of a product is not empty. -/
theorem Product.name_ne_nil (stem : Bytes) (a : Product) : a.name stem ≠ [] := by
  obtain ⟨b, -, hlast⟩ := exists_getLast?_name stem a
  intro hnil
  rw [hnil] at hlast
  cases hlast

/-- A path of a job file: its last part is the stem with the extension (`Path.Cut`). -/
structure HasStem (p : Path) (before stem : Bytes) : Prop where
  cut : Path.Cut p.bytes before (stem ++ Path.dot :: Utf8.encode "job")
  stem_ne_nil : stem ≠ []
  stem : stemOf p = stem

namespace HasStem

variable {p : Path} {before stem : Bytes}

/-- The stem of a job file holds no slash (`HasStem`). -/
theorem slash_notMem (h : HasStem p before stem) : Path.slash ∉ stem :=
  fun hmem => h.cut.part (List.mem_append_left _ hmem)

/-- What is written beside the job file goes into the directory in which it is (`directoryOf`). -/
theorem directoryOf_eq (h : HasStem p before stem) : directoryOf p = Path.trimEnd ⟨before⟩ := by
  have hne : stem ++ Path.dot :: Utf8.encode "job" ≠ [] := by simp
  have hhere : stem ++ Path.dot :: Utf8.encode "job" ≠ Path.here := by
    intro he
    have hlast := congrArg List.getLast? he
    rw [List.getLast?_append_of_ne_nil _ (List.cons_ne_nil _ _)] at hlast
    exact absurd hlast (by decide)
  rw [directoryOf, Path.parent?, h.cut.splitLast_eq hne hhere]
  cases hpart : stem ++ Path.dot :: Utf8.encode "job" with
  | nil => exact absurd hpart hne
  | cons b rest => rfl

/-- The path of the output ends in its `Product.name`. -/
theorem output (h : HasStem p before stem) :
    (Product.path p .output).bytes = before ++ Product.name stem .output := by
  rw [Product.path, Product.name]
  split
  case isTrue hhere =>
    subst hhere
    have hbytes : p.bytes = before ++ Path.above ++ Utf8.encode "job" := by
      rw [h.cut.eq, List.append_assoc]
      rfl
    have hup : p.bytes.take (p.bytes.length - (Utf8.encode "job").length) =
        before ++ Path.above := by
      rw [hbytes, List.length_append, Nat.add_sub_cancel, List.take_left' rfl]
    have hextension : p.extension? = some (Utf8.encode "job") := by
      rw [h.cut.extension?_eq (by decide) (by decide)]
      rfl
    have hname : (Path.mk (before ++ Path.above)).fileName? = none :=
      Path.Cut.fileName?_above ⟨rfl, by decide, h.cut.before⟩
    simp only [Path.withExtension, hextension, hup, Path.addExtension, Path.fileStem?, hname,
      Option.map_none]
  case isFalse hhere =>
    rw [Path.withExtension_append h.cut (by decide) h.stem_ne_nil hhere, List.append_assoc]

/-- The path of a backup ends in its `Product.name`. -/
theorem exists_cut_backup (h : HasStem p before stem) (n : Nat) :
    ∃ front, Path.Cut (Product.path p (.backup n)).bytes front (Product.name stem (.backup n)) := by
  obtain ⟨front, hfront⟩ := Path.Cut.exists_join (directoryOf p)
  have hname : Utf8.encode (nameOf p ++ "-" ++ toString n ++ ".bck") =
      Product.name stem (.backup n) := by
    rw [Product.name, numbering, nameOf, h.stem]
    simp only [Utf8.encode_append, List.append_assoc]
    rfl
  refine ⟨front, ?_⟩
  rw [Product.path, State.backupPath, State.start, backupPath, Path.ofString, hname]
  exact hfront _ (Product.slash_notMem_name h.slash_notMem _)

/-- The path of what a job makes ends in its `Product.name`, behind the last slash. -/
theorem exists_cut_path (h : HasStem p before stem) (a : Product) :
    ∃ front, Path.Cut (a.path p).bytes front (a.name stem) := by
  have hslash := Product.slash_notMem_name h.slash_notMem a
  cases a with
  | output => exact ⟨before, h.output, hslash, h.cut.before⟩
  | backup n => exact h.exists_cut_backup n
  | beside n =>
    obtain ⟨front, hcut⟩ := h.exists_cut_backup n
    have hbackup : (Product.path p (.backup n)).bytes =
        front ++ Utf8.encode (Utf8.lossy stem) ++
          (numbering n ++ Path.dot :: Utf8.encode "bck") := by
      rw [hcut.eq, Product.name]
      simp only [List.append_assoc]
    refine ⟨front, ?_, hslash, hcut.before⟩
    refine (besideOf_eq hbackup).trans ?_
    rw [Product.name]
    simp only [List.append_assoc]

/-- The last name of a product's path is its `Product.name`. -/
theorem getLast?_names (h : HasStem p before stem) (a : Product) :
    (FileSystem.names (a.path p)).getLast? = some (a.name stem) := by
  obtain ⟨front, hcut⟩ := h.exists_cut_path a
  exact hcut.getLast?_names (Product.name_ne_nil stem a)

/-- Products of different names are apart (`Path.Apart`). -/
theorem apart (h : HasStem p before stem) {q : Path} {before' stem' : Bytes}
    (h' : HasStem q before' stem') {a b : Product} (hne : a.name stem ≠ b.name stem') :
    (a.path p).Apart (b.path q) := by
  refine Path.apart_of_names ?_
  rw [h.getLast?_names, h'.getLast?_names]
  exact fun heq => hne (Option.some.inj heq)

end HasStem

/-- A job file of a directory (`isJobFile`) has a name with a stem. -/
theorem exists_hasStem (directory : Path) : ∃ before, ∀ (fs : FileSystem) (name : Bytes),
    IsName name → isJobFile fs (directory.join ⟨name⟩) = true →
      ∃ stem, name = stem ++ Path.dot :: Utf8.encode "job" ∧
        HasStem (directory.join ⟨name⟩) before stem := by
  obtain ⟨before, hbefore⟩ := Path.Cut.exists_join directory
  refine ⟨before, fun fs name hname hjob => ⟨(Path.splitName name).1, ?_⟩⟩
  have hcut := hbefore name hname.slash
  have hextension : (Path.splitName name).2 = some (Utf8.encode "job") := by
    rw [← hcut.extension?_eq hname.ne_nil hname.ne_here]
    exact eq_of_beq (Bool.and_eq_true_iff.1 hjob).1
  obtain ⟨hwhole, hstem, -, habove⟩ := Path.splitName_eq_some hextension
  refine ⟨hwhole, hwhole ▸ hcut, hstem, ?_⟩
  rw [stemOf, Path.fileStem?, hcut.fileName?_eq hname.ne_nil hname.ne_here habove]
  rfl

/-- How the products of two job files are related: they are apart (`Path.Apart`), but for the
backups of one number, and the files beside them, of jobs whose names read alike. These have one
path. -/
structure Related (p q : Path) : Prop where
  apart : ∀ a b : Product, a ≠ b ∨ a = .output → (a.path p).Apart (b.path q)
  unlike : nameOf p ≠ nameOf q → ∀ a b : Product, (a.path p).Apart (b.path q)
  alike : nameOf p = nameOf q → ∀ a : Product, a ≠ .output → a.path p = a.path q
  text : ∀ s t, Utf8.decode (stemOf p) = .ok s → Utf8.decode (stemOf q) = .ok t →
    nameOf p ≠ nameOf q

/-- The products of two job files of one directory with different stems are `Related`. -/
theorem HasStem.related {p q : Path} {before stem stem' : Bytes} (h : HasStem p before stem)
    (h' : HasStem q before stem') (hne : stem ≠ stem') : Related p q where
  apart a b hab := by
    refine h.apart h' fun heq => ?_
    obtain ⟨hsame, houtput, -⟩ := Product.name_inj heq
    exact hab.elim (absurd hsame) fun ha => hne (houtput ha)
  unlike hunlike a b := by
    refine h.apart h' fun heq => ?_
    obtain ⟨-, houtput, hread⟩ := Product.name_inj heq
    by_cases ha : a = .output
    · exact hne (houtput ha)
    · rw [nameOf, nameOf, h.stem, h'.stem] at hunlike
      exact hunlike (hread ha)
  alike halike a ha := by
    have hdirectory : directoryOf p = directoryOf q :=
      h.directoryOf_eq.trans h'.directoryOf_eq.symm
    cases a with
    | output => exact absurd rfl ha
    | backup n => rw [Product.path, Product.path, halike, hdirectory]
    | beside n => rw [Product.path, Product.path, halike, hdirectory]
  text s t hs ht halike := by
    rw [nameOf, nameOf, Utf8.lossy_of_decode_eq_ok hs, Utf8.lossy_of_decode_eq_ok ht] at halike
    rw [h.stem] at hs
    rw [h'.stem] at ht
    rw [← Utf8.encode_of_decode_eq_ok hs, ← Utf8.encode_of_decode_eq_ok ht, halike] at hne
    exact hne rfl

/-- A job file of a directory makes different files, and those of another job file of the directory
are different from them, unless the names of the two are not both text and read alike
(`Related`). -/
theorem apart_products {fs : FileSystem} {directory : Path} {name name' : Bytes}
    (hname : IsName name) (hname' : IsName name')
    (hjob : isJobFile fs (directory.join ⟨name⟩) = true)
    (hjob' : isJobFile fs (directory.join ⟨name'⟩) = true) :
    (∀ a b : Product, a ≠ b →
        (a.path (directory.join ⟨name⟩)).Apart (b.path (directory.join ⟨name⟩))) ∧
      (name ≠ name' → Related (directory.join ⟨name⟩) (directory.join ⟨name'⟩)) := by
  obtain ⟨before, hbefore⟩ := exists_hasStem directory
  obtain ⟨stem, hwhole, hstem⟩ := hbefore fs name hname hjob
  obtain ⟨stem', hwhole', hstem'⟩ := hbefore fs name' hname' hjob'
  refine ⟨fun a b hab => hstem.apart hstem fun heq => hab (Product.name_inj heq).1, fun hne => ?_⟩
  refine hstem.related hstem' ?_
  rintro rfl
  exact hne (hwhole.trans hwhole'.symm)

/-! ## Two jobs in one directory -/

/-- The working directory with two files, which may be job files (`apart_products`). -/
def withFiles (name name' : Bytes) : FileSystem :=
  { (FileSystem.bare.put (FileSystem.bare.working ++ [name]) (.file 0)).put
      (FileSystem.bare.working ++ [name']) (.file 1) with contents := [[], []] }

/-- A file of the working directory whose name has the extension is a job file by `isJobFile`. -/
theorem isJobFile_of_name {fs : FileSystem} {name : Bytes} {n : Nat}
    (hworking : fs.node? fs.working = some .directory) (hslash : Path.slash ∉ name)
    (hcheck : FileSystem.check ⟨name⟩ = .ok ()) (hproper : FileSystem.IsProper name)
    (hfile : fs.node? (fs.working ++ [name]) = some (.file n))
    (hextension : (Path.mk name).extension? = some (Utf8.encode "job")) :
    isJobFile fs ((Path.mk []).join ⟨name⟩) = true := by
  have hjoin : (Path.mk []).join ⟨name⟩ = ⟨name⟩ := by
    unfold Path.join
    split <;> rfl
  have hfound := (FileSystem.offers_of_name (p := ⟨name⟩) hworking hslash hcheck hproper
    (.inr ⟨n, hfile⟩)).find?_eq
  rw [hjoin, isJobFile, hextension, FileSystem.isFile, hfound, hfile]
  rfl

/-- The files of the jobs `a` and `b` have nothing to do with each other. -/
theorem apart_products_aAndB :
    Related ((Path.mk []).join (.ofString "a.job")) ((Path.mk []).join (.ofString "b.job")) := by
  have hname : IsName (Utf8.encode "a.job") := ⟨by decide, by decide, by decide⟩
  have hname' : IsName (Utf8.encode "b.job") := ⟨by decide, by decide, by decide⟩
  have hjob : isJobFile (withFiles (Utf8.encode "a.job") (Utf8.encode "b.job"))
      ((Path.mk []).join ⟨Utf8.encode "a.job"⟩) = true :=
    isJobFile_of_name (n := 0) (by decide) (by decide) (by decide)
      ⟨by decide, by decide, by decide⟩ (by decide) (by decide)
  have hjob' : isJobFile (withFiles (Utf8.encode "a.job") (Utf8.encode "b.job"))
      ((Path.mk []).join ⟨Utf8.encode "b.job"⟩) = true :=
    isJobFile_of_name (n := 1) (by decide) (by decide) (by decide)
      ⟨by decide, by decide, by decide⟩ (by decide) (by decide)
  exact (apart_products hname hname' hjob hjob').2 (by decide)

/-- The name of a job that is no text if its byte opens no character, so `Utf8.lossy` replaces
it. -/
def unreadable (b : UInt8) : Bytes := b :: Utf8.encode ".job"

/-- The names of two `unreadable` jobs read alike, and their first backups have one path. -/
theorem backups_meet :
    IsName (unreadable 0xFE) ∧ IsName (unreadable 0xFF) ∧ unreadable 0xFE ≠ unreadable 0xFF ∧
      isJobFile (withFiles (unreadable 0xFE) (unreadable 0xFF))
        ((Path.mk []).join ⟨unreadable 0xFE⟩) = true ∧
      isJobFile (withFiles (unreadable 0xFE) (unreadable 0xFF))
        ((Path.mk []).join ⟨unreadable 0xFF⟩) = true ∧
      Product.path ((Path.mk []).join ⟨unreadable 0xFE⟩) (.backup 1) =
        Product.path ((Path.mk []).join ⟨unreadable 0xFF⟩) (.backup 1) := by
  refine ⟨⟨by decide, by decide, by decide⟩, ⟨by decide, by decide, by decide⟩, by decide,
    isJobFile_of_name (n := 0) (by decide) (by decide) (by decide)
      ⟨by decide, by decide, by decide⟩ (by decide) (by decide),
    isJobFile_of_name (n := 1) (by decide) (by decide) (by decide)
      ⟨by decide, by decide, by decide⟩ (by decide) (by decide), ?_⟩
  decide

end Job

end KeyWatch
