import Mathlib.Data.List.Induction
import Mathlib.Data.List.Nodup
import KeyWatch.Proofs.Files.Walk

/-!
# Making and moving files

What becomes of a file system in good order when a file is made at a place that is free
(`FileSystem.Offers.create`), when something is written into it, and when it is given another free
place (`FileSystem.Offers.rename`): the places concerned are as they should be, all the others and
the contents of all other files are as they were, and the file system stays in good order.
-/

namespace KeyWatch

namespace FileSystem

variable {fs fs' : FileSystem}

/-! ## Contents -/

/-- The content that `setContent` gives a file is its content, and the other files keep theirs. -/
theorem content_setContent {n : Nat} (h : n < fs.contents.length) (m : Nat) (b : Bytes) :
    (fs.setContent n b).content m = if m = n then b else fs.content m := by
  simp only [content, setContent, List.getElem?_set]
  by_cases hm : n = m
  · subst hm
    simp [h]
  · simp [hm, Ne.symm hm]

/-- A content that `setContent` gives a file makes no file more. -/
@[simp] theorem length_setContent (fs : FileSystem) (n : Nat) (b : Bytes) :
    (fs.setContent n b).contents.length = fs.contents.length :=
  List.length_set

/-- To write into files by `setContent` puts no file system out of order. -/
theorem Tidy.setContent (h : fs.Tidy) (n : Nat) (b : Bytes) : (fs.setContent n b).Tidy where
  held := h.held
  numbered l m hm := Nat.lt_of_lt_of_eq (h.numbered l m hm) (length_setContent fs n b).symm
  single := h.single

/-- Two file systems that differ in the contents of some files and in nothing else, as `writeAt`
makes them. -/
structure WritesOnly (written : Nat → Prop) (fs fs' : FileSystem) : Prop where
  nodes : fs'.nodes = fs.nodes
  working : fs'.working = fs.working
  length : fs'.contents.length = fs.contents.length
  contents : ∀ m, ¬written m → fs'.content m = fs.content m

namespace WritesOnly

variable {written : Nat → Prop}

/-- A file system in which nothing is written differs in no content (`WritesOnly`). -/
theorem refl (written : Nat → Prop) (fs : FileSystem) : fs.WritesOnly written fs :=
  ⟨rfl, rfl, rfl, fun _ _ => rfl⟩

/-- What is written into the same files one time after another is written into these files only
(`WritesOnly`). -/
theorem trans {fs'' : FileSystem} (h : fs.WritesOnly written fs')
    (h' : fs'.WritesOnly written fs'') : fs.WritesOnly written fs'' :=
  ⟨h'.nodes.trans h.nodes, h'.working.trans h.working, h'.length.trans h.length,
    fun m hm => (h'.contents m hm).trans (h.contents m hm)⟩

/-- What is written into some files only is written into these and more only (`WritesOnly`). -/
theorem mono {written' : Nat → Prop} (h : fs.WritesOnly written fs')
    (hsub : ∀ m, written m → written' m) : fs.WritesOnly written' fs' :=
  ⟨h.nodes, h.working, h.length, fun m hm => h.contents m fun hw => hm (hsub m hw)⟩

/-- What stands at a place does not depend on what is written (`WritesOnly`). -/
theorem node? (h : fs.WritesOnly written fs') (l : Location) : fs'.node? l = fs.node? l := by
  unfold FileSystem.node?
  rw [h.nodes]

/-- The ways do not depend on what is written (`SameWays`). -/
theorem sameWays (h : fs.WritesOnly written fs') : fs.SameWays fs' :=
  ⟨h.working, fun l => by rw [h.node?]⟩

/-- Where a path leads does not depend on what is written (`Offers`). -/
theorem offers (h : fs.WritesOnly written fs') {p : Path} {l : Location} (ho : fs.Offers p l) :
    fs'.Offers p l :=
  ho.congr h.sameWays (by rw [h.node?]; exact ho.free)

/-- A tidy file system stays so whatever is written (`WritesOnly`). -/
theorem tidy (h : fs.WritesOnly written fs') (htidy : fs.Tidy) : fs'.Tidy where
  held l name hsome := by
    rw [h.node?] at hsome ⊢
    exact htidy.held l name hsome
  numbered l n hn := by
    rw [h.length]
    exact htidy.numbered l n (h.node? l ▸ hn)
  single l l' n hn hn' := htidy.single l l' n (h.node? l ▸ hn) (h.node? l' ▸ hn')

end WritesOnly

/-- Writing into a file by `writeAt` changes that file only (`WritesOnly`). -/
theorem writesOnly_writeAt (fs : FileSystem) (n offset : Nat) (b : Bytes) :
    fs.WritesOnly (· = n) (fs.writeAt n offset b) := by
  unfold writeAt
  split
  case isTrue => exact .refl _ fs
  case isFalse =>
    refine ⟨rfl, rfl, length_setContent .., fun m hm => ?_⟩
    simp only [content, setContent, List.getElem?_set_ne (Ne.symm hm)]

/-- Bytes that `writeAt` writes where a file ends come behind the others. -/
theorem content_writeAt {n : Nat} (h : n < fs.contents.length) (b : Bytes) :
    (fs.writeAt n (fs.content n).length b).content n = fs.content n ++ b := by
  unfold writeAt
  split
  case isTrue hempty => rw [List.isEmpty_iff.1 hempty, List.append_nil]
  case isFalse =>
    rw [content_setContent h, if_pos rfl, overwrite, List.take_length, Nat.sub_self,
      List.drop_eq_nil_of_le (Nat.le_add_right _ _)]
    simp

/-! ## Making files -/

/-- A file system in which a file was made at a place, empty, in the stead of one that was there or
new (`create`). -/
structure Made (fs fs' : FileSystem) (l : Location) (n : Nat) : Prop where
  tidy : fs'.Tidy
  working : fs'.working = fs.working
  here : fs'.node? l = some (.file n)
  elsewhere : ∀ l' ≠ l, fs'.node? l' = fs.node? l'
  empty : fs'.content n = []
  contents : ∀ m ≠ n, fs'.content m = fs.content m
  origin : fs.node? l = some (.file n) ∨ fs.contents.length ≤ n
  length : fs.contents.length ≤ fs'.contents.length

/-- A file that is made where no walk goes on leaves the ways as they are (`SameWays`). -/
theorem Made.sameWays {l : Location} {n : Nat} (h : Made fs fs' l n)
    (hway : Node.way? (fs.node? l) = none) : fs.SameWays fs' where
  working := h.working
  ways l' := by
    by_cases hl : l' = l
    · rw [hl, hway, h.here]
      rfl
    · rw [h.elsewhere l' hl]

/-- What `put` puts at a place stands there, and at every other place what stood there. -/
theorem node?_put {l : Location} (hl : l ≠ []) (node : Node) (l' : Location) :
    (fs.put l node).node? l' = if l' = l then some node else fs.node? l' := by
  unfold node? put
  by_cases hnil : l' = []
  · subst hnil
    rw [if_neg (Ne.symm hl)]
    rfl
  · have hempty : ¬l'.isEmpty = true := by simpa using hnil
    rw [if_neg hempty, if_neg hempty, OrderedMap.find?_insert]

/-- The file system with a new file in a directory is one in which it was `Made`. -/
theorem made_of_new {d : Location} {name : Bytes} (htidy : fs.Tidy)
    (hdir : fs.node? d = some .directory) (hnone : fs.node? (d ++ [name]) = none) :
    Made fs
      { fs.put (d ++ [name]) (.file fs.contents.length) with contents := fs.contents ++ [[]] }
      (d ++ [name]) fs.contents.length := by
  have hne : d ++ [name] ≠ [] := by simp
  have hnode : ∀ l, ({ fs.put (d ++ [name]) (.file fs.contents.length) with
      contents := fs.contents ++ [[]] } : FileSystem).node? l =
        if l = d ++ [name] then some (.file fs.contents.length) else fs.node? l :=
    node?_put hne _
  have hheld : ∀ l' name', fs.node? (l' ++ [name']) ≠ none → l' ≠ d ++ [name] := by
    rintro l' name' hsome rfl
    have hdirectory := htidy.held _ _ hsome
    rw [hnone] at hdirectory
    cases hdirectory
  have hd : d ≠ d ++ [name] := by
    intro he
    rw [← he, hdir] at hnone
    cases hnone
  refine {
    tidy := {
      held := fun l' name' hsome => ?_
      numbered := fun l' n hfile => ?_
      single := fun l' l'' n hfile hfile' => ?_ }
    working := rfl
    here := by rw [hnode, if_pos rfl]
    elsewhere := fun l' hl' => by rw [hnode, if_neg hl']
    empty := ?_
    contents := fun m hm => ?_
    origin := .inr (Nat.le_refl _)
    length := ?_ }
  · rw [hnode] at hsome ⊢
    split at hsome
    case isTrue heq =>
      obtain ⟨rfl, -⟩ := List.append_inj' heq rfl
      rw [if_neg hd, hdir]
    case isFalse =>
      rw [if_neg (hheld l' name' hsome)]
      exact htidy.held l' name' hsome
  · rw [hnode] at hfile
    show n < (fs.contents ++ [[]]).length
    rw [List.length_append, List.length_singleton]
    split at hfile
    case isTrue =>
      cases hfile
      exact Nat.lt_succ_self _
    case isFalse => exact Nat.lt_succ_of_lt (htidy.numbered l' n hfile)
  · rw [hnode] at hfile hfile'
    split at hfile
    case isTrue heq =>
      split at hfile'
      case isTrue heq' => rw [heq, heq']
      case isFalse =>
        cases hfile
        exact absurd (htidy.numbered l'' _ hfile') (Nat.lt_irrefl _)
    case isFalse =>
      split at hfile'
      case isTrue =>
        cases hfile'
        exact absurd (htidy.numbered l' _ hfile) (Nat.lt_irrefl _)
      case isFalse => exact htidy.single l' l'' n hfile hfile'
  · simp [content]
  · simp only [content, List.getElem?_append]
    split
    case isTrue => rfl
    case isFalse hle =>
      rw [List.getElem?_eq_none (Nat.not_lt.1 hle), List.getElem?_eq_none]
      rw [List.length_singleton]
      omega
  · show fs.contents.length ≤ (fs.contents ++ [[]]).length
    rw [List.length_append]
    exact Nat.le_add_right _ _

/-- The `bare` file system is in good order. -/
theorem tidy_bare : bare.Tidy := by
  have hnode : ∀ l node, bare.node? l = some node →
      node = .directory ∧ (l = [] ∨ l = [Utf8.encode "tmp"] ∨ l = [Utf8.encode "work"]) := by
    intro l node hl
    unfold node? at hl
    split at hl
    case isTrue hnil => exact ⟨(Option.some.inj hl).symm, .inl (List.isEmpty_iff.1 hnil)⟩
    case isFalse =>
      simp only [bare, OrderedMap.find?_insert, OrderedMap.find?_empty] at hl
      split at hl
      case isTrue htmp => exact ⟨(Option.some.inj hl).symm, .inr (.inl htmp)⟩
      case isFalse =>
        split at hl
        case isTrue hwork => exact ⟨(Option.some.inj hl).symm, .inr (.inr hwork)⟩
        case isFalse => cases hl
  refine ⟨fun l name hsome => ?_, fun l n hl => ?_, fun l l' n hl _ => ?_⟩
  · obtain ⟨node, hl⟩ := Option.ne_none_iff_exists'.1 hsome
    obtain ⟨-, hnil | hname | hname⟩ := hnode _ _ hl
    · simp at hnil
    · obtain ⟨hroot, -⟩ := List.append_inj' (hname.trans (List.nil_append _).symm) rfl
      rw [hroot]
      rfl
    · obtain ⟨hroot, -⟩ := List.append_inj' (hname.trans (List.nil_append _).symm) rfl
      rw [hroot]
      rfl
  · cases (hnode _ _ hl).1
  · cases (hnode _ _ hl).1

/-- A path that offers a place has a file made there by `create`, with nothing else changed
(`Made`). -/
theorem Offers.create {p : Path} {l : Location} (h : fs.Offers p l) (htidy : fs.Tidy) :
    ∃ n fs', fs.create p = .ok (n, fs') ∧ Made fs fs' l n := by
  obtain ⟨d, name, rfl, hdir⟩ := h.exists_directory htidy
  rcases h.free with hnone | ⟨n, hfile⟩
  · refine ⟨_, _, ?_, made_of_new htidy hdir hnone⟩
    unfold FileSystem.create
    rw [h.place_eq, hnone]
    rfl
  · have hlt := htidy.numbered _ n hfile
    refine ⟨n, fs.setContent n [], ?_, ?_⟩
    · unfold FileSystem.create
      rw [h.place_eq, hfile]
      rfl
    · exact {
        tidy := htidy.setContent n []
        working := rfl
        here := hfile
        elsewhere := fun _ _ => rfl
        empty := by rw [content_setContent hlt, if_pos rfl]
        contents := fun m hm => by rw [content_setContent hlt, if_neg hm]
        origin := .inl hfile
        length := Nat.le_of_eq (length_setContent fs n []).symm }

/-! ## Moving files -/

/-- In a tidy file system whatever stands below a place stands in a directory there
(`Tidy.held`). -/
theorem Tidy.held_append (h : fs.Tidy) {l way : Location} (hway : way ≠ [])
    (hsome : fs.node? (l ++ way) ≠ none) : fs.node? l = some .directory := by
  induction way using List.reverseRecOn with
  | nil => exact absurd rfl hway
  | append_singleton way name ih =>
    rw [← List.append_assoc] at hsome
    have hdir := h.held _ _ hsome
    by_cases hnil : way = []
    · rwa [hnil, List.append_nil] at hdir
    · refine ih hnil ?_
      rw [hdir]
      exact nofun

/-- A file system in which the file of a place was moved to another, as by `rename`. -/
structure Moved (fs fs' : FileSystem) (source target : Location) (n : Nat) : Prop where
  tidy : fs'.Tidy
  working : fs'.working = fs.working
  taken : fs'.node? target = some (.file n)
  left : fs'.node? source = none
  elsewhere : ∀ l, l ≠ source → l ≠ target → fs'.node? l = fs.node? l
  contents : fs'.contents = fs.contents

/-- Below a file stands nothing, so the bindings that `move` moves are the file's alone. -/
theorem filter_isPrefixOf (htidy : fs.Tidy) {source : Location} {n : Nat}
    (hsource : fs.node? source = some (.file n)) :
    (fs.nodes.bindings.filter fun (place, _) => source.isPrefixOf place) =
      [(source, .file n)] := by
  have hnil : source ≠ [] := by
    rintro rfl
    cases hsource
  have hempty : ¬source.isEmpty = true := by simpa using hnil
  have hfind : fs.nodes.find? source = some (.file n) := by
    rwa [node?, if_neg hempty] at hsource
  have hmem : (source, Node.file n) ∈ fs.nodes.bindings.filter fun (place, _) =>
      source.isPrefixOf place :=
    List.mem_filter.2 ⟨(OrderedMap.mem_bindings_iff _ _ _).2 hfind, by simp⟩
  have hall : ∀ binding ∈ fs.nodes.bindings.filter fun (place, _) => source.isPrefixOf place,
      binding = (source, .file n) := by
    rintro ⟨place, node⟩ hbinding
    obtain ⟨hbound, hprefix⟩ := List.mem_filter.1 hbinding
    obtain ⟨way, rfl⟩ := List.isPrefixOf_iff_prefix.1 hprefix
    have hplace := (OrderedMap.mem_bindings_iff _ _ _).1 hbound
    by_cases hway : way = []
    · rw [hway, List.append_nil] at hplace ⊢
      rw [hfind] at hplace
      rw [Option.some.inj hplace]
    · have hdir := htidy.held_append hway (l := source) (by simp [node?, hnil, hplace])
      rw [hsource] at hdir
      cases hdir
  have hnodup : (fs.nodes.bindings.filter fun (place, _) => source.isPrefixOf place).Nodup :=
    (List.Nodup.of_map Prod.fst fs.nodes.nodup_keys).filter _
  refine Decidable.byContradiction fun hne => ?_
  rcases (hnodup.ne_singleton_iff _).1 hne with hnone | ⟨binding, hbinding, hother⟩
  · rw [hnone] at hmem
    cases hmem
  · exact hother (hall binding hbinding)

/-- A file that `move` moves stands at its new place and not at its old one, and nothing else
moves. -/
theorem node?_move (htidy : fs.Tidy) {source target : Location} {n : Nat}
    (hsource : fs.node? source = some (.file n)) (htarget : target ≠ []) (l : Location) :
    (fs.move source target).node? l =
      if l = target then some (.file n) else if l = source then none else fs.node? l := by
  have hnil : source ≠ [] := by
    rintro rfl
    cases hsource
  unfold node? move
  rw [filter_isPrefixOf htidy hsource]
  simp only [List.foldl_cons, List.foldl_nil, List.drop_length, List.append_nil,
    OrderedMap.find?_insert, OrderedMap.find?_erase]
  by_cases hl : l = []
  · simp [hl, Ne.symm htarget, Ne.symm hnil]
  · have hempty : ¬l.isEmpty = true := by simpa using hl
    rw [if_neg hempty, if_neg hempty]

/-- A place that can hold a file does not stand below another that is no directory (`Tidy`). -/
theorem Offers.isPrefixOf_eq_false {p : Path} {l source : Location} (h : fs.Offers p l)
    (htidy : fs.Tidy) (hne : source ≠ l) (hsource : fs.node? source ≠ some .directory) :
    source.isPrefixOf l = false := by
  obtain ⟨d, name, rfl, hdir⟩ := h.exists_directory htidy
  refine Bool.eq_false_iff.2 fun hprefix => ?_
  obtain ⟨way, hway⟩ := List.isPrefixOf_iff_prefix.1 hprefix
  rcases List.eq_nil_or_concat way with rfl | ⟨front, last, rfl⟩
  · rw [List.append_nil] at hway
    exact hne hway
  · rw [List.concat_eq_append, ← List.append_assoc] at hway
    obtain ⟨hd, -⟩ := List.append_inj' hway rfl
    by_cases hfront : front = []
    · rw [hfront, List.append_nil] at hd
      exact hsource (hd ▸ hdir)
    · refine hsource (htidy.held_append hfront ?_)
      rw [hd, hdir]
      exact nofun

/-- At a place that a path offers stands no directory. -/
theorem Offers.ne_directory {p : Path} {l l' : Location} (h : fs.Offers p l)
    (hdir : fs.node? l' = some .directory) : l' ≠ l := by
  rintro rfl
  have hway := h.way?_eq_none
  rw [hdir] at hway
  cases hway

/-- Moving a file by `move` to another place in a directory leaves a file system in good order, with
nothing else changed (`Moved`). -/
theorem moved_move {d : Location} {name : Bytes} {source : Location} {n : Nat} (htidy : fs.Tidy)
    (hfile : fs.node? source = some (.file n)) (hdir : fs.node? d = some .directory)
    (hfree : fs.node? (d ++ [name]) ≠ some .directory) (hne : source ≠ d ++ [name]) :
    Moved fs (fs.move source (d ++ [name])) source (d ++ [name]) n := by
  have hnode := node?_move htidy hfile (show d ++ [name] ≠ [] by simp)
  have hdirectory : ∀ l, fs.node? l = some .directory →
      (fs.move source (d ++ [name])).node? l = some .directory := by
    intro l hl
    rw [hnode, if_neg, if_neg, hl]
    · rintro rfl
      rw [hfile] at hl
      cases hl
    · rintro rfl
      exact hfree hl
  have hmoved : ∀ l m, (fs.move source (d ++ [name])).node? l = some (.file m) →
      l = d ++ [name] ∧ m = n ∨ l ≠ source ∧ fs.node? l = some (.file m) := by
    intro l m hl
    rw [hnode] at hl
    split at hl
    case isTrue heq =>
      cases hl
      exact .inl ⟨heq, rfl⟩
    case isFalse =>
      split at hl
      case isTrue => cases hl
      case isFalse hsource => exact .inr ⟨hsource, hl⟩
  refine {
    tidy := {
      held := fun l name' hsome => ?_
      numbered := fun l m hl => ?_
      single := fun l l' m hl hl' => ?_ }
    working := rfl
    taken := by rw [hnode, if_pos rfl]
    left := by rw [hnode, if_neg hne, if_pos rfl]
    elsewhere := fun l hl hl' => by rw [hnode, if_neg hl', if_neg hl]
    contents := rfl }
  · rw [hnode] at hsome
    split at hsome
    case isTrue heq =>
      obtain ⟨rfl, -⟩ := List.append_inj' heq rfl
      exact hdirectory l hdir
    case isFalse =>
      split at hsome
      case isTrue => exact absurd rfl hsome
      case isFalse => exact hdirectory l (htidy.held l name' hsome)
  · rcases hmoved l m hl with ⟨-, rfl⟩ | ⟨-, hold⟩
    · exact htidy.numbered source m hfile
    · exact htidy.numbered l m hold
  · rcases hmoved l m hl with ⟨rfl, rfl⟩ | ⟨hsource, hold⟩
    · rcases hmoved l' m hl' with ⟨rfl, -⟩ | ⟨hsource', hold'⟩
      · rfl
      · exact absurd (htidy.single l' source m hold' hfile) hsource'
    · rcases hmoved l' m hl' with ⟨rfl, rfl⟩ | ⟨-, hold'⟩
      · exact absurd (htidy.single l source m hold hfile) hsource
      · exact htidy.single l l' m hold hold'

/-- A file is moved by `rename` from the place that one path offers to the one that another
offers. -/
theorem Offers.rename {p q : Path} {source target : Location} {n : Nat} (hp : fs.Offers p source)
    (hq : fs.Offers q target) (htidy : fs.Tidy) (hfile : fs.node? source = some (.file n))
    (hne : source ≠ target) :
    ∃ fs', fs.rename p q = .ok fs' ∧ Moved fs fs' source target n := by
  obtain ⟨d, name, rfl, hdir⟩ := hq.exists_directory htidy
  have hsource : fs.node? source ≠ some .directory := fun h => hp.ne_directory h rfl
  have htarget : fs.node? (d ++ [name]) ≠ some .directory := fun h => hq.ne_directory h rfl
  refine ⟨fs.move source (d ++ [name]), ?_, moved_move htidy hfile hdir htarget hne⟩
  obtain ⟨_, hholder⟩ := hp.exists_holder
  obtain ⟨_, hholder'⟩ := hq.exists_holder
  have hbelow := hq.isPrefixOf_eq_false htidy hne hsource
  have habove := hp.isPrefixOf_eq_false htidy hne.symm htarget
  have hreplace : fs.replace (.file n) source (d ++ [name]) =
      .ok (fs.move source (d ++ [name])) := by
    unfold replace
    rcases hq.free with hnone | ⟨m, hm⟩
    · rw [hnone]
      rfl
    · rw [hm]
      rfl
  unfold FileSystem.rename
  simp only [bind, Except.bind, hholder, hholder', hp.slot_eq, hq.slot_eq, hp.name, hq.name, hfile,
    hne, hbelow, habove, hreplace]
  rfl

end FileSystem

end KeyWatch
