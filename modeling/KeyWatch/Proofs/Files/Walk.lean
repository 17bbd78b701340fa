import KeyWatch.Files.System
import KeyWatch.Proofs.Text.Utf8

/-!
# Where paths lead

A walk that reaches a place is told step by step (`FileSystem.Walks`), and a walk is one of these
(`FileSystem.walk_eq_ok_iff`). It looks at directories and links only, so it goes the same way in
file systems that have the same of them (`FileSystem.SameWays`), whatever files are made, written or
moved elsewhere. A path to a place where a file can be put (`FileSystem.Offers`) also leads there
through links, and the directory that holds the place is found.
-/

namespace KeyWatch

/-- What a walk sees of what stands at a place: a directory or a link. Anything else it treats like
nothing (`FileSystem.walk`). -/
def Node.way? : Option Node → Option Node
  | some .directory => some .directory
  | some (.link target) => some (.link target)
  | _ => none

namespace FileSystem

/-- A name that `walk` looks up in a directory: it is neither dot nor dots, and not too long. -/
structure IsProper (name : Bytes) : Prop where
  ne_here : name ≠ Path.here
  ne_above : name ≠ Path.above
  short : name.length ≤ maxNameSize

/-- The walks that reach a place, step by step, one constructor for each way in which `walk` goes
on. -/
inductive Walks (fs : FileSystem) (follow : Bool) : Nat → Location → List Bytes → Location → Prop
  /-- there are no names left -/
  | done (links : Nat) (here : Location) : Walks fs follow links here [] here
  /-- a dot stays in the directory -/
  | stay {links : Nat} {here l : Location} {rest : List Bytes}
      (directory : fs.node? here = some .directory) (walks : Walks fs follow links here rest l) :
      Walks fs follow links here (Path.here :: rest) l
  /-- two dots leave the directory -/
  | leave {links : Nat} {here l : Location} {rest : List Bytes}
      (directory : fs.node? here = some .directory)
      (walks : Walks fs follow links here.dropLast rest l) :
      Walks fs follow links here (Path.above :: rest) l
  /-- a name leads into a directory -/
  | enter {links : Nat} {here l : Location} {name : Bytes} {rest : List Bytes}
      (directory : fs.node? here = some .directory) (proper : IsProper name)
      (entered : fs.node? (here ++ [name]) = some .directory)
      (walks : Walks fs follow links (here ++ [name]) rest l) :
      Walks fs follow links here (name :: rest) l
  /-- a name is that of a link -/
  | through {links : Nat} {here l : Location} {name : Bytes} {rest : List Bytes} {target : Path}
      (directory : fs.node? here = some .directory) (proper : IsProper name)
      (link : fs.node? (here ++ [name]) = some (.link target)) (follows : rest = [] → follow = true)
      (walks : Walks fs follow links (start target here) (targetNames target ++ rest) l) :
      Walks fs follow (links + 1) here (name :: rest) l
  /-- the last name is that of a place without a directory, or of a link that is not followed -/
  | last {links : Nat} {here : Location} {name : Bytes}
      (directory : fs.node? here = some .directory) (proper : IsProper name)
      (way : Node.way? (fs.node? (here ++ [name])) = none ∨
        follow = false ∧ ∃ target, fs.node? (here ++ [name]) = some (.link target)) :
      Walks fs follow links here [name] (here ++ [name])

variable {fs : FileSystem} {follow : Bool}

/-- A `walk` that reaches a place is told step by step: whichever way it goes on by the first name,
there is a constructor of `Walks` for it, and the rest is so by induction. -/
theorem walks_of_walk {links : Nat} {here l : Location} {way : List Bytes}
    (h : fs.walk follow links here way = .ok l) : fs.Walks follow links here way l := by
  fun_induction walk fs follow links here way with
  | case2 | case5 | case7 | case11 | case13 | case14 => cases h
  | case1 =>
    cases h
    exact .done _ _
  | case3 links here rest hdir ih => exact .stay hdir (ih h)
  | case4 links here rest hdir _ ih => exact .leave hdir (ih h)
  | case6 links here name rest hdir hhere habove hshort place target hlink hlast =>
    simp only [Bool.and_eq_true, List.isEmpty_iff, Bool.not_eq_true'] at hlast
    obtain ⟨rfl, hfollow⟩ := hlast
    rw [← Except.ok.inj h]
    exact .last hdir ⟨hhere, habove, Nat.not_lt.1 hshort⟩ (.inr ⟨hfollow, target, hlink⟩)
  | case8 here name rest hdir hhere habove hshort place target hlink hlast links ih =>
    simp only [Bool.and_eq_true, List.isEmpty_iff, Bool.not_eq_true', not_and,
      Bool.not_eq_false] at hlast
    exact .through hdir ⟨hhere, habove, Nat.not_lt.1 hshort⟩ hlink hlast (ih h)
  | case9 links here name rest hdir hhere habove hshort place hentered ih =>
    exact .enter hdir ⟨hhere, habove, Nat.not_lt.1 hshort⟩ hentered (ih h)
  | case10 links here name rest hdir hhere habove hshort place node hlink hnode hsome hlast =>
    obtain rfl := List.isEmpty_iff.1 hlast
    rw [← Except.ok.inj h]
    refine .last hdir ⟨hhere, habove, Nat.not_lt.1 hshort⟩ (.inl ?_)
    rw [hsome]
    cases node with
    | directory => exact absurd rfl hnode
    | link target => exact absurd rfl (hlink target)
    | file | fifo => rfl
  | case12 links here name rest hdir hhere habove hshort place hnone hlast =>
    obtain rfl := List.isEmpty_iff.1 hlast
    rw [← Except.ok.inj h]
    exact .last hdir ⟨hhere, habove, Nat.not_lt.1 hshort⟩ (.inl (by rw [hnone]; rfl))

/-- A `walk` reaches a place just if it is told so by `Walks`. -/
theorem walk_eq_ok_iff {links : Nat} {here l : Location} {way : List Bytes} :
    fs.walk follow links here way = .ok l ↔ fs.Walks follow links here way l := by
  refine ⟨walks_of_walk, fun h => ?_⟩
  induction h with
  | done links here => rw [walk]
  | stay hdir _ ih =>
    rw [walk, hdir]
    exact ih
  | leave hdir _ ih =>
    rw [walk, hdir]
    exact ih
  | enter hdir hproper hentered _ ih =>
    rw [walk, hdir]
    simp only [if_neg hproper.ne_here, if_neg hproper.ne_above, if_neg (Nat.not_lt.2 hproper.short),
      hentered]
    exact ih
  | through hdir hproper hlink hfollows _ ih =>
    rw [walk, hdir]
    simp only [if_neg hproper.ne_here, if_neg hproper.ne_above, if_neg (Nat.not_lt.2 hproper.short),
      hlink]
    rw [if_neg]
    · exact ih
    · simpa using hfollows
  | @last links here name hdir hproper hway =>
    rw [walk, hdir]
    simp only [if_neg hproper.ne_here, if_neg hproper.ne_above, if_neg (Nat.not_lt.2 hproper.short)]
    cases hnode : fs.node? (here ++ [name]) with
    | none => rfl
    | some node =>
      rw [hnode] at hway
      cases node with
      | directory => rcases hway with h | ⟨-, _, h⟩ <;> cases h
      | file | fifo => rfl
      | link target =>
        rcases hway with h | ⟨hfollow, -⟩
        · cases h
        · rw [hfollow]
          rfl

/-! ## The same ways -/

/-- A walk sees a directory just where one stands (`Node.way?`). -/
@[simp] theorem way?_eq_directory {node : Option Node} :
    Node.way? node = some .directory ↔ node = some .directory := by
  cases node with
  | none => simp [Node.way?]
  | some node => cases node <;> simp [Node.way?]

/-- A walk sees a link just where one stands (`Node.way?`). -/
@[simp] theorem way?_eq_link {node : Option Node} {target : Path} :
    Node.way? node = some (.link target) ↔ node = some (.link target) := by
  cases node with
  | none => simp [Node.way?]
  | some node => cases node <;> simp [Node.way?]

/-- Where there is nothing or a file, no walk goes on (`Node.way?`). -/
theorem way?_of_free {node : Option Node} (h : node = none ∨ ∃ n, node = some (.file n)) :
    Node.way? node = none := by
  rcases h with rfl | ⟨n, rfl⟩
  · rfl
  · rfl

/-- Two file systems with the same directories and links, and the same working directory
(`Node.way?`). -/
structure SameWays (fs fs' : FileSystem) : Prop where
  working : fs'.working = fs.working
  ways : ∀ l, Node.way? (fs'.node? l) = Node.way? (fs.node? l)

namespace SameWays

variable {fs' : FileSystem}

/-- Where the ways are the same, a directory of the one is one of the other. -/
theorem directory (h : SameWays fs fs') {l : Location} (hl : fs.node? l = some .directory) :
    fs'.node? l = some .directory := by
  rw [← way?_eq_directory, h.ways, way?_eq_directory, hl]

/-- Where the ways are the same, a link of the one is one of the other, to the same target. -/
theorem link (h : SameWays fs fs') {l : Location} {target : Path}
    (hl : fs.node? l = some (.link target)) : fs'.node? l = some (.link target) := by
  rw [← way?_eq_link, h.ways, way?_eq_link, hl]

/-- Where the ways are the same, `Walks` reach the same places. -/
theorem walks (h : SameWays fs fs') {links : Nat} {here l : Location} {way : List Bytes}
    (hw : fs.Walks follow links here way l) : fs'.Walks follow links here way l := by
  induction hw with
  | done links here => exact .done links here
  | stay hdir _ ih => exact .stay (h.directory hdir) ih
  | leave hdir _ ih => exact .leave (h.directory hdir) ih
  | enter hdir hproper hentered _ ih =>
    exact .enter (h.directory hdir) hproper (h.directory hentered) ih
  | through hdir hproper hlink hfollows _ ih =>
    exact .through (h.directory hdir) hproper (h.link hlink) hfollows ih
  | last hdir hproper hway =>
    refine .last (h.directory hdir) hproper ?_
    rcases hway with hnone | ⟨hfollow, target, hlink⟩
    · exact .inl ((h.ways _).trans hnone)
    · exact .inr ⟨hfollow, target, h.link hlink⟩

end SameWays

/-! ## File systems in good order -/

/-- A file system in good order: what stands somewhere stands in a directory, every file has a
content, and no two places have the same file (`Node.file`). -/
structure Tidy (fs : FileSystem) : Prop where
  held : ∀ l name, fs.node? (l ++ [name]) ≠ none → fs.node? l = some .directory
  numbered : ∀ l n, fs.node? l = some (.file n) → n < fs.contents.length
  single : ∀ l l' n, fs.node? l = some (.file n) → fs.node? l' = some (.file n) → l = l'

/-- In a tidy file system a directory stands above a directory (`Tidy.held`). -/
theorem Tidy.directory_dropLast (h : fs.Tidy) {l : Location} (hl : fs.node? l = some .directory) :
    fs.node? l.dropLast = some .directory := by
  rcases List.eq_nil_or_concat l with rfl | ⟨front, name, rfl⟩
  · rfl
  · rw [List.concat_eq_append] at hl ⊢
    rw [List.dropLast_concat]
    refine h.held front name ?_
    rw [hl]
    exact nofun

namespace Walks

variable {links : Nat} {here l : Location} {way : List Bytes}

/-- A walk that ends at neither a directory nor a link ends at a name in a directory (`Tidy`). -/
theorem exists_directory (h : fs.Walks follow links here way l) (htidy : fs.Tidy)
    (hhere : way = [] → fs.node? here = some .directory) (hend : Node.way? (fs.node? l) = none) :
    ∃ d name, l = d ++ [name] ∧ fs.node? d = some .directory := by
  induction h with
  | done links here =>
    rw [hhere rfl] at hend
    cases hend
  | stay hdir _ ih => exact ih (fun _ => hdir) hend
  | leave hdir _ ih => exact ih (fun _ => htidy.directory_dropLast hdir) hend
  | enter _ _ hentered _ ih => exact ih (fun _ => hentered) hend
  | @through _ here _ _ _ target hdir _ _ _ _ ih =>
    refine ih (fun _ => ?_) hend
    unfold start
    split
    case isTrue => rfl
    case isFalse => exact hdir
  | @last _ here name hdir _ _ => exact ⟨here, name, rfl, hdir⟩

/-- A walk that does not end at a link does not care whether the last link is followed (`Walks`). -/
theorem followed (h : fs.Walks follow links here way l) (hend : Node.way? (fs.node? l) = none)
    (follow' : Bool) (hfollow : follow = true → follow' = true) :
    fs.Walks follow' links here way l := by
  induction h with
  | done links here => exact .done links here
  | stay hdir _ ih => exact .stay hdir (ih hend)
  | leave hdir _ ih => exact .leave hdir (ih hend)
  | enter hdir hproper hentered _ ih => exact .enter hdir hproper hentered (ih hend)
  | through hdir hproper hlink hfollows _ ih =>
    exact .through hdir hproper hlink (fun hrest => hfollow (hfollows hrest)) (ih hend)
  | last hdir hproper _ => exact .last hdir hproper (.inl hend)

/-- The directory in which the last name of a walk is looked up can be walked to (`Walks`). -/
theorem exists_holder (h : fs.Walks follow links here way l) {init : List Bytes} {name : Bytes}
    (hway : way = init ++ [name]) : ∃ d, fs.Walks true links here (init ++ [Path.here]) d := by
  induction h generalizing init with
  | done => simp at hway
  | @stay links here _ rest hdir _ ih =>
    cases init with
    | nil => exact ⟨here, .stay hdir (.done links here)⟩
    | cons first init =>
      obtain ⟨rfl, hrest⟩ := List.cons_eq_cons.1 hway
      obtain ⟨d, hd⟩ := ih hrest
      exact ⟨d, .stay hdir hd⟩
  | @leave links here _ rest hdir _ ih =>
    cases init with
    | nil => exact ⟨here, .stay hdir (.done links here)⟩
    | cons first init =>
      obtain ⟨rfl, hrest⟩ := List.cons_eq_cons.1 hway
      obtain ⟨d, hd⟩ := ih hrest
      exact ⟨d, .leave hdir hd⟩
  | @enter links here _ _ rest hdir hproper hentered _ ih =>
    cases init with
    | nil => exact ⟨here, .stay hdir (.done links here)⟩
    | cons first init =>
      obtain ⟨rfl, hrest⟩ := List.cons_eq_cons.1 hway
      obtain ⟨d, hd⟩ := ih hrest
      exact ⟨d, .enter hdir hproper hentered hd⟩
  | @through links here _ _ rest target hdir hproper hlink _ _ ih =>
    cases init with
    | nil => exact ⟨here, .stay hdir (.done (links + 1) here)⟩
    | cons first init =>
      obtain ⟨rfl, hrest⟩ := List.cons_eq_cons.1 hway
      have hway' : targetNames target ++ rest = targetNames target ++ init ++ [name] := by
        rw [hrest]
        exact (List.append_assoc ..).symm
      obtain ⟨d, hd⟩ := ih hway'
      refine ⟨d, .through hdir hproper hlink (fun _ => rfl) ?_⟩
      rwa [List.append_assoc] at hd
  | @last links here _ hdir _ _ =>
    cases init with
    | nil => exact ⟨here, .stay hdir (.done links here)⟩
    | cons first init => simp at hway

end Walks

/-! ## Places for files -/

/-- A path leads to a place where a file can be put: it ends in a name, and there is nothing yet or
a file (`slot`). -/
structure Offers (fs : FileSystem) (p : Path) (l : Location) : Prop where
  name : endsInName p = true
  slot : fs.slot false p = .ok ⟨l, fs.node? l, false⟩
  free : fs.node? l = none ∨ ∃ n, fs.node? l = some (.file n)

/-- A path has a place by `slot` just if it is sound and a walk over its names reaches the place. -/
theorem slot_eq_ok_iff {p : Path} {place : Place} :
    fs.slot follow p = .ok place ↔
      check p = .ok () ∧ fs.Walks follow maxLinks (start p fs.working) (names p) place.location ∧
        place = ⟨place.location, fs.node? place.location, asksDirectory p⟩ := by
  rw [← walk_eq_ok_iff]
  unfold FileSystem.slot
  constructor
  · intro h
    obtain ⟨u, hcheck, h⟩ := exists_of_bind_eq_ok h
    obtain ⟨l, hwalk, h⟩ := exists_of_bind_eq_ok h
    cases h
    exact ⟨hcheck, hwalk, rfl⟩
  · rintro ⟨hcheck, hwalk, hplace⟩
    rw [hcheck, hplace]
    simp only [bind, Except.bind, hwalk]
    rfl

/-- A path has a directory that holds its place by `holder` just if it is sound and a walk reaches
the directory. -/
theorem holder_eq_ok_iff {p : Path} {d : Location} :
    fs.holder p = .ok d ↔
      check p = .ok () ∧
        fs.Walks true maxLinks (start p fs.working) ((names p).dropLast ++ [Path.here]) d := by
  rw [← walk_eq_ok_iff]
  unfold holder
  constructor
  · intro h
    obtain ⟨u, hcheck, hwalk⟩ := exists_of_bind_eq_ok h
    exact ⟨hcheck, hwalk⟩
  · rintro ⟨hcheck, hwalk⟩
    rw [hcheck]
    exact hwalk

namespace Offers

variable {p : Path} {l : Location}

/-- No walk goes on at a place where a file can be put (`Node.way?`). -/
theorem way?_eq_none (h : fs.Offers p l) : Node.way? (fs.node? l) = none := way?_of_free h.free

/-- A path offers one place at most (`Offers`). -/
theorem unique {l' : Location} (h : fs.Offers p l) (h' : fs.Offers p l') : l = l' := by
  have hslot := h.slot
  rw [h'.slot] at hslot
  exact (congrArg Place.location (Except.ok.inj hslot)).symm

/-- The last link of a path that offers a place is none, so it does not matter to `slot` whether it
is followed. -/
theorem slot_eq (h : fs.Offers p l) (follow : Bool) :
    fs.slot follow p = .ok ⟨l, fs.node? l, false⟩ := by
  obtain ⟨hcheck, hwalks, hplace⟩ := slot_eq_ok_iff.1 h.slot
  exact slot_eq_ok_iff.2 ⟨hcheck, hwalks.followed h.way?_eq_none follow nofun, hplace⟩

/-- A path that offers a place leads there by `place`, be the last link followed or not. -/
theorem place_eq (h : fs.Offers p l) (follow : Bool) :
    fs.place follow p = .ok ⟨l, fs.node? l, false⟩ := by
  unfold place
  rw [h.slot_eq]
  rcases h.free with hnone | ⟨n, hfile⟩
  · rw [hnone]
    rfl
  · rw [hfile]
    rfl

/-- The directory that holds the place which a path offers is found by `holder`. -/
theorem exists_holder (h : fs.Offers p l) : ∃ d, fs.holder p = .ok d := by
  obtain ⟨hcheck, hwalks, -⟩ := slot_eq_ok_iff.1 h.slot
  have hname := h.name
  unfold endsInName at hname
  split at hname
  case h_1 => cases hname
  case h_2 name hlast =>
    obtain ⟨init, hinit⟩ := List.getLast?_eq_some_iff.1 hlast
    obtain ⟨d, hd⟩ := hwalks.exists_holder hinit
    refine ⟨d, holder_eq_ok_iff.2 ⟨hcheck, ?_⟩⟩
    rwa [hinit, List.dropLast_concat]

/-- The place that a path offers is one in a directory (`Tidy.held`). -/
theorem exists_directory (h : fs.Offers p l) (htidy : fs.Tidy) :
    ∃ d name, l = d ++ [name] ∧ fs.node? d = some .directory := by
  obtain ⟨-, hwalks, -⟩ := slot_eq_ok_iff.1 h.slot
  refine hwalks.exists_directory htidy (fun hnil => ?_) h.way?_eq_none
  have hname := h.name
  rw [endsInName, hnil] at hname
  cases hname

/-- A path keeps offering a place as long as the ways are the same (`SameWays`) and the place is
free. -/
theorem congr {fs' : FileSystem} (h : fs.Offers p l) (hways : fs.SameWays fs')
    (hfree : fs'.node? l = none ∨ ∃ n, fs'.node? l = some (.file n)) : fs'.Offers p l where
  name := h.name
  slot := by
    obtain ⟨hcheck, hwalks, hplace⟩ := slot_eq_ok_iff.1 h.slot
    refine slot_eq_ok_iff.2 ⟨hcheck, ?_, ?_⟩
    · rw [hways.working]
      exact hways.walks hwalks
    · have hasks : false = asksDirectory p := congrArg Place.asDirectory hplace
      rw [hasks]
  free := hfree

/-- What stands at the place that a path offers is what `find?` finds by the path. -/
theorem find?_eq (h : fs.Offers p l) : fs.find? p = fs.node? l := by
  rw [find?, h.place_eq]

end Offers

/-! ## Paths of files -/

/-- Where a path leads by `slot`, if the last link is not followed; the root, if it leads
nowhere. -/
def locate (fs : FileSystem) (p : Path) : Location :=
  match fs.slot false p with
  | .ok place => place.location
  | .error _ => []

/-- A path leads to a place where there is nothing yet or a file (`Offers`, `locate`). -/
def IsFree (fs : FileSystem) (p : Path) : Prop := fs.Offers p (fs.locate p)

/-- What is in the file to which a path leads (`find?`), if it leads to one. -/
def contentAt? (fs : FileSystem) (p : Path) : Option Bytes :=
  match fs.find? p with
  | some (.file n) => some (fs.content n)
  | _ => none

/-- A file that was opened by `openRead` is there. -/
theorem exists_of_openRead {p : Path} {n : Nat}
    (h : fs.openRead p = .ok (.file n)) : ∃ l, fs.node? l = some (.file n) := by
  obtain ⟨place, hplace, hopening⟩ := exists_of_bind_eq_ok h
  obtain ⟨slot, hslot, hnode⟩ := exists_of_bind_eq_ok hplace
  obtain ⟨-, -, hslot⟩ := slot_eq_ok_iff.1 hslot
  have hsame : slot = place := by
    split at hnode
    case h_1 => exact Except.ok.inj hnode
    case h_2 => exact Except.ok.inj hnode
    case h_3 =>
      split at hnode
      case isTrue => cases hnode
      case isFalse => exact Except.ok.inj hnode
  subst hsame
  refine ⟨slot.location, ?_⟩
  have hfound : fs.node? slot.location = slot.node := by rw [hslot]
  rw [hfound]
  cases hfile : slot.node with
  | none =>
    rw [hfile] at hopening
    cases hopening
  | some node =>
    rw [hfile] at hopening
    cases node with
    | file number =>
      cases hopening
      rfl
    | directory | fifo | link => cases hopening

namespace Offers

variable {p : Path} {l : Location}

/-- A path that offers a place leads there by `locate`. -/
theorem locate_eq (h : fs.Offers p l) : fs.locate p = l := by
  rw [locate, h.slot]

/-- A path that offers the place of a file leads by `contentAt?` to the file's content. -/
theorem contentAt?_eq {n : Nat} (h : fs.Offers p l) (hn : fs.node? l = some (.file n)) :
    fs.contentAt? p = some (fs.content n) := by
  rw [contentAt?, h.find?_eq, hn]

end Offers

end FileSystem

end KeyWatch
