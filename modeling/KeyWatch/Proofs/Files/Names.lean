import Mathlib.Data.List.Basic
import Mathlib.Data.List.Induction
import KeyWatch.Proofs.Files.Walk

/-!
# The names of places

A path that leads to a place for a file ends in the name of that place
(`FileSystem.Offers.getLast?_names`), which stands behind its last slash (`Path.Cut`). So paths with
different names lead to different places, through whatever directories they may lead
(`FileSystem.Offers.ne_of_getLast?`, `FileSystem.Offers.eq_of_append`). What stands behind the last
slash is also what an extension is given to (`Path.withExtension_append`).
-/

namespace KeyWatch

/-! ## The last names of paths -/

/-- Bytes are cut behind their last slash (`Path.slash`). -/
structure Path.Cut (bytes before part : Bytes) : Prop where
  eq : bytes = before ++ part
  part : Path.slash ∉ part
  before : before = [] ∨ ∃ front, before = front ++ [Path.slash]

namespace Path.Cut

/-- All bytes can be cut behind their last slash (`Cut`). -/
theorem exists_cut (bytes : Bytes) : ∃ before part, Path.Cut bytes before part := by
  induction bytes using List.reverseRecOn with
  | nil => exact ⟨[], [], rfl, List.not_mem_nil, .inl rfl⟩
  | append_singleton bytes b ih =>
    by_cases hb : b = Path.slash
    · exact ⟨bytes ++ [b], [], (List.append_nil _).symm, List.not_mem_nil, .inr ⟨bytes, hb ▸ rfl⟩⟩
    · obtain ⟨before, part, rfl, hpart, hbefore⟩ := ih
      refine ⟨before, part ++ [b], List.append_assoc .., fun hmem => ?_, hbefore⟩
      rcases List.mem_append.1 hmem with hmem | hmem
      · exact hpart hmem
      · exact hb (List.mem_singleton.1 hmem).symm

/-- A name that `join` puts below a path stands behind the last slash. -/
theorem exists_join (p : Path) :
    ∃ before, ∀ name, Path.slash ∉ name → Path.Cut (p.join ⟨name⟩).bytes before name := by
  have hrelative : ∀ {name : Bytes}, Path.slash ∉ name → (Path.mk name).isAbsolute = false :=
    fun h => beq_eq_false_iff_ne.2 fun hhead => h (List.mem_of_mem_head? hhead)
  cases hlast : p.bytes.getLast? with
  | none =>
    refine ⟨[], fun name h => ⟨?_, h, .inl rfl⟩⟩
    simp [Path.join, hrelative h, hlast]
  | some b =>
    by_cases hb : b = Path.slash
    · obtain ⟨front, hfront⟩ := List.getLast?_eq_some_iff.1 hlast
      refine ⟨p.bytes, fun name h => ⟨?_, h, .inr ⟨front, hb ▸ hfront⟩⟩⟩
      simp [Path.join, hrelative h, hlast, hb]
    · refine ⟨p.bytes ++ [Path.slash], fun name h => ⟨?_, h, .inr ⟨p.bytes, rfl⟩⟩⟩
      simp [Path.join, hrelative h, hlast, hb]

variable {bytes before part : Bytes}

/-- Bytes that are no slashes are put behind the last part (`Cut`). -/
theorem append (h : Path.Cut bytes before part) {more : Bytes} (hmore : Path.slash ∉ more) :
    Path.Cut (bytes ++ more) before (part ++ more) where
  eq := by rw [h.eq, List.append_assoc]
  part hmem := (List.mem_append.1 hmem).elim h.part hmore
  before := h.before

/-- The last part of a path, if it is not empty, is the last of its `names`. -/
theorem getLast?_names {p : Path} (h : Path.Cut p.bytes before part) (hne : part ≠ []) :
    (FileSystem.names p).getLast? = some part := by
  have hkept : [part].filter (!·.isEmpty) = [part] := by simp [hne]
  unfold FileSystem.names
  rw [h.eq]
  rcases h.before with rfl | ⟨front, rfl⟩
  · rw [List.nil_append, List.splitOn_eq_singleton h.part, hkept]
    rfl
  · rw [List.append_assoc, List.singleton_append, List.splitOn_append_cons_self,
      List.splitOn_eq_singleton h.part, List.filter_append, hkept, List.getLast?_concat]

/-- A last part that is neither empty nor a dot is not idle, so `trimEnd` leaves it. -/
theorem trimEnd_eq {p : Path} (h : Path.Cut p.bytes before part) (hne : part ≠ [])
    (hhere : part ≠ Path.here) : p.trimEnd = p := by
  have hidle : Path.dropIdle p.bytes.reverse = p.bytes.reverse := by
    obtain ⟨front, b, rfl⟩ : ∃ front b, part = front ++ [b] :=
      ⟨_, _, (List.dropLast_concat_getLast hne).symm⟩
    have hb : b ≠ Path.slash := fun he => h.part (he ▸ List.mem_append_right _ List.mem_cons_self)
    rw [h.eq, ← List.append_assoc, List.reverse_append, List.reverse_singleton,
      List.singleton_append]
    cases hrest : (before ++ front).reverse with
    | nil => rfl
    | cons c rest =>
      rw [Path.dropIdle, if_neg hb, if_neg]
      rintro ⟨rfl, rfl⟩
      -- the dot stands behind a slash, so it is the whole part
      rcases List.eq_nil_or_concat front with rfl | ⟨front, d, rfl⟩
      · exact hhere rfl
      · rw [List.concat_eq_append, ← List.append_assoc, List.reverse_append] at hrest
        obtain ⟨rfl, -⟩ := List.cons_eq_cons.1 hrest
        exact h.part (by simp)
  rw [Path.trimEnd, hidle, List.reverse_reverse]

/-- What stands before the last part, and the part, are what `splitLast` gives. -/
theorem splitLast_eq {p : Path} (h : Path.Cut p.bytes before part) (hne : part ≠ [])
    (hhere : part ≠ Path.here) : p.splitLast = (before, part) := by
  have hpart : ∀ b ∈ part.reverse, (b != Path.slash) = true := by
    intro b hb
    refine bne_iff_ne.2 ?_
    rintro rfl
    exact h.part (List.mem_reverse.1 hb)
  have htake : (part.reverse ++ before.reverse).takeWhile (· != Path.slash) = part.reverse ∧
      (part.reverse ++ before.reverse).dropWhile (· != Path.slash) = before.reverse := by
    rw [List.takeWhile_append_of_pos hpart, List.dropWhile_append_of_pos hpart]
    rcases h.before with rfl | ⟨front, rfl⟩
    · exact ⟨List.append_nil _, rfl⟩
    · rw [List.reverse_append, List.reverse_singleton]
      exact ⟨List.append_nil _, rfl⟩
  simp only [Path.splitLast, h.trimEnd_eq hne hhere, h.eq, List.reverse_append, htake,
    List.reverse_reverse]

/-- A last part that is no dot and not dots is the file's name by `fileName?`. -/
theorem fileName?_eq {p : Path} (h : Path.Cut p.bytes before part) (hne : part ≠ [])
    (hhere : part ≠ Path.here) (habove : part ≠ Path.above) : p.fileName? = some part := by
  simp only [Path.fileName?, h.splitLast_eq hne hhere]
  rw [if_neg]
  simp [hne, hhere, habove]

/-- A path that ends in the directory above names no file by `fileName?`. -/
theorem fileName?_above {p : Path} (h : Path.Cut p.bytes before Path.above) :
    p.fileName? = none := by
  simp only [Path.fileName?, h.splitLast_eq (by decide) (by decide)]
  rfl

/-- The extension of a path by `extension?` is that of its last part (`splitName`). -/
theorem extension?_eq {p : Path} (h : Path.Cut p.bytes before part) (hne : part ≠ [])
    (hhere : part ≠ Path.here) : p.extension? = (Path.splitName part).2 := by
  rcases Decidable.eq_or_ne part Path.above with rfl | habove
  · rw [Path.extension?, h.fileName?_above]
    rfl
  · rw [Path.extension?, h.fileName?_eq hne hhere habove]
    rfl

end Path.Cut

namespace Path

/-- A name with a dot behind a stem is neither `here` nor `above`, which stand for directories. -/
theorem append_dot_ne {stem : Bytes} (hnil : stem ≠ []) (hhere : stem ≠ here) (extension : Bytes) :
    stem ++ dot :: extension ≠ [] ∧ stem ++ dot :: extension ≠ here ∧
      stem ++ dot :: extension ≠ above := by
  match stem with
  | [] => exact absurd rfl hnil
  | [b] =>
    refine ⟨nofun, nofun, fun he => hhere ?_⟩
    rw [(List.cons_eq_cons.1 he).1]
    rfl
  | b :: c :: rest =>
    refine ⟨nofun, nofun, fun he => ?_⟩
    have hrest : rest ++ dot :: extension = [] :=
      (List.cons_eq_cons.1 (List.cons_eq_cons.1 he).2).2
    simp at hrest

/-- A name is cut by `splitName` at its last dot. -/
theorem splitName_append {stem extension : Bytes} (hstem : stem ≠ [])
    (hextension : Path.dot ∉ extension) (habove : stem ++ dot :: extension ≠ above) :
    splitName (stem ++ dot :: extension) = (stem, some extension) := by
  have hbytes : ∀ b ∈ extension.reverse, (b != dot) = true := by
    intro b hb
    refine bne_iff_ne.2 ?_
    rintro rfl
    exact hextension (List.mem_reverse.1 hb)
  have hreverse : (stem ++ dot :: extension).reverse =
      extension.reverse ++ dot :: stem.reverse := by
    simp
  have htail : ((stem ++ dot :: extension).reverse.takeWhile (· != dot)) = extension.reverse := by
    rw [hreverse, List.takeWhile_append_of_pos hbytes]
    exact List.append_nil _
  have hhead : (stem ++ dot :: extension).reverse.drop (extension.reverse.length + 1) =
      stem.reverse := by
    rw [hreverse, List.drop_append]
    simp
  simp only [splitName, htail, hhead, List.reverse_reverse]
  rw [if_neg]
  simp [habove, hstem]

/-- A name that `splitName` cuts at a dot is put together again. -/
theorem splitName_eq_some {name extension : Bytes} (h : (splitName name).2 = some extension) :
    name = (splitName name).1 ++ dot :: extension ∧ (splitName name).1 ≠ [] ∧ dot ∉ extension ∧
      name ≠ above := by
  simp only [splitName] at h ⊢
  split at h
  case isTrue => cases h
  case isFalse hsplit =>
    rw [if_neg hsplit]
    obtain ⟨habove, hhead⟩ := not_or.1 hsplit
    obtain rfl := Option.some.inj h
    refine ⟨?_, hhead, fun hmem => ?_, habove⟩
    · have hwhole := List.takeWhile_append_dropWhile (p := (· != dot)) (l := name.reverse)
      generalize name.reverse.takeWhile (· != dot) = tail at hhead hwhole ⊢
      have hdot := List.head?_dropWhile_not (· != dot) name.reverse
      -- behind the run without dots stands a dot, in reversed bytes
      cases hrest : name.reverse.dropWhile (· != dot) with
      | nil =>
        rw [hrest, List.append_nil] at hwhole
        simp [← hwhole] at hhead
      | cons b rest =>
        rw [hrest] at hwhole hdot
        obtain rfl : b = dot := by simpa using hdot
        rw [← hwhole, List.drop_length_add_append]
        rw [← List.reverse_reverse name, ← hwhole]
        simp
    · have hdot := List.all_eq_true.1 List.all_takeWhile _ (List.mem_reverse.1 hmem)
      simp at hdot

/-- The extension of a name is replaced by `withExtension`, and what stands before it is left. -/
theorem withExtension_append {p : Path} {before stem extension : Bytes}
    (h : Cut p.bytes before (stem ++ dot :: extension)) (hdot : dot ∉ extension)
    (hnil : stem ≠ []) (hhere : stem ≠ here) (new : String) :
    p.withExtension new = ⟨before ++ stem ++ dot :: Utf8.encode new⟩ := by
  have hslash : slash ∉ stem := fun hmem => h.part (List.mem_append_left _ hmem)
  obtain ⟨hne, hneHere, hneAbove⟩ := append_dot_ne hnil hhere extension
  have hextension : p.extension? = some extension := by
    rw [extension?, h.fileName?_eq hne hneHere hneAbove, Option.bind_some,
      splitName_append hnil hdot hneAbove]
  obtain ⟨hne', hneHere', hneAbove'⟩ := append_dot_ne hnil hhere []
  have hcut : Cut (p.bytes.take (p.bytes.length - extension.length)) before (stem ++ [dot]) := by
    refine ⟨?_, fun hmem => ?_, h.before⟩
    · have htake : p.bytes = (before ++ (stem ++ [dot])) ++ extension := by
        rw [h.eq]
        simp
      rw [htake, List.length_append, Nat.add_sub_cancel, List.take_left' rfl]
    · rcases List.mem_append.1 hmem with hmem | hmem
      · exact hslash hmem
      · cases List.mem_singleton.1 hmem
  unfold withExtension
  rw [hextension]
  simp only [addExtension, fileStem?]
  rw [Cut.fileName?_eq (p := ⟨_⟩) hcut hne' hneHere' hneAbove',
    Cut.splitLast_eq (p := ⟨_⟩) hcut hne' hneHere', Option.map_some,
    splitName_append hnil List.not_mem_nil hneAbove']

end Path

/-! ## Places with different names -/

namespace FileSystem

variable {fs : FileSystem}

/-- A walk that ends at neither a directory nor a link ends at the last name (`Walks`). -/
theorem Walks.getLast?_eq {links : Nat} {here l : Location} {way : List Bytes}
    (h : fs.Walks false links here way l) (htidy : fs.Tidy) (hne : way ≠ [])
    (hend : Node.way? (fs.node? l) = none) : l.getLast? = way.getLast? := by
  have hdirectory : ∀ {l : Location}, fs.node? l = some .directory →
      Node.way? (fs.node? l) ≠ none := by
    intro l hl
    rw [hl]
    exact nofun
  induction h with
  | done => exact absurd rfl hne
  | @stay _ _ _ rest hdir walks ih =>
    cases rest with
    | nil =>
      cases walks
      exact absurd hend (hdirectory hdir)
    | cons name rest => exact ih (List.cons_ne_nil _ _) hend
  | @leave _ _ _ rest hdir walks ih =>
    cases rest with
    | nil =>
      cases walks
      exact absurd hend (hdirectory (htidy.directory_dropLast hdir))
    | cons name rest => exact ih (List.cons_ne_nil _ _) hend
  | @enter _ _ _ _ rest _ _ hentered walks ih =>
    cases rest with
    | nil =>
      cases walks
      exact absurd hend (hdirectory hentered)
    | cons name rest => exact ih (List.cons_ne_nil _ _) hend
  | @through _ _ _ _ rest _ _ _ _ hfollows walks ih =>
    cases rest with
    | nil => cases hfollows rfl
    | cons name rest =>
      rw [ih (by simp) hend, List.getLast?_append_of_ne_nil _ (List.cons_ne_nil _ _),
        List.getLast?_cons_cons]
  | last => exact List.getLast?_concat

/-- Behind the last slash of a path that can be walked (`check`) stands something, unless the path
asks for a directory. -/
theorem exists_cut_of_check {p : Path} (hcheck : check p = .ok ())
    (hasks : asksDirectory p = false) :
    ∃ before part, Path.Cut p.bytes before part ∧ part ≠ [] := by
  obtain ⟨before, part, hcut⟩ := Path.Cut.exists_cut p.bytes
  refine ⟨before, part, hcut, ?_⟩
  rintro rfl
  have hbytes : p.bytes = before := hcut.eq.trans (List.append_nil before)
  rcases hcut.before with hnil | ⟨front, hfront⟩
  · have hempty : check p ≠ .ok () := by
      simp [check, hbytes, hnil]
    exact hempty hcheck
  · rw [asksDirectory, hbytes, hfront, List.getLast?_concat] at hasks
    cases hasks

/-- A path that is a name offers the place of that name in the working directory (`Offers`). -/
theorem offers_of_name {p : Path} (hworking : fs.node? fs.working = some .directory)
    (hslash : Path.slash ∉ p.bytes) (hcheck : check p = .ok ()) (hproper : IsProper p.bytes)
    (hfree : fs.node? (fs.working ++ [p.bytes]) = none ∨
      ∃ n, fs.node? (fs.working ++ [p.bytes]) = some (.file n)) :
    fs.Offers p (fs.working ++ [p.bytes]) := by
  have hne : p.bytes ≠ [] := by
    intro hnil
    simp [check, hnil] at hcheck
  have hnames : names p = [p.bytes] := by
    rw [names, List.splitOn_eq_singleton hslash]
    simp [hne]
  have habsolute : p.isAbsolute = false := by
    refine beq_eq_false_iff_ne.2 fun hhead => hslash ?_
    exact List.mem_of_mem_head? hhead
  have hasks : asksDirectory p = false := by
    refine beq_eq_false_iff_ne.2 fun hlast => hslash ?_
    exact List.mem_of_getLast? hlast
  refine ⟨?_, slot_eq_ok_iff.2 ⟨hcheck, ?_, by rw [hasks]⟩, hfree⟩
  · simp only [endsInName, hnames, List.getLast?_singleton, Bool.and_eq_true, bne_iff_ne]
    exact ⟨hproper.ne_here, hproper.ne_above⟩
  · rw [hnames, start, habsolute]
    exact .last hworking hproper (.inl (way?_of_free hfree))

namespace Offers

variable {p q : Path} {l l' : Location}

/-- A path that offers a place ends in the name of the place (`names`). -/
theorem getLast?_names (h : fs.Offers p l) (htidy : fs.Tidy) :
    l.getLast? = (names p).getLast? := by
  obtain ⟨-, hwalks, -⟩ := slot_eq_ok_iff.1 h.slot
  refine hwalks.getLast?_eq htidy (fun hnil => ?_) h.way?_eq_none
  have hname := h.name
  rw [endsInName, hnil] at hname
  cases hname

/-- Behind the last slash of a path that offers a place stands a name (`Path.Cut`). -/
theorem exists_cut (h : fs.Offers p l) :
    ∃ before part, Path.Cut p.bytes before part ∧ part ≠ [] ∧ part ≠ Path.here ∧
      part ≠ Path.above := by
  obtain ⟨hcheck, -, hplace⟩ := slot_eq_ok_iff.1 h.slot
  obtain ⟨before, part, hcut, hne⟩ :=
    exists_cut_of_check hcheck (congrArg Place.asDirectory hplace).symm
  have hname := h.name
  simp only [endsInName, hcut.getLast?_names hne, Bool.and_eq_true, bne_iff_ne] at hname
  exact ⟨before, part, hcut, hne, hname.1, hname.2⟩

/-- A path that offers a place has a `fileName?`. -/
theorem fileName?_ne_none (h : fs.Offers p l) : p.fileName? ≠ none := by
  obtain ⟨before, part, hcut, hne, hhere, habove⟩ := h.exists_cut
  rw [hcut.fileName?_eq hne hhere habove]
  exact nofun

/-- The name of the place that a path offers ends in the byte in which the path ends
(`getLast?_names`). -/
theorem getLast?_bytes (h : fs.Offers p l) (htidy : fs.Tidy) :
    ∃ name, l.getLast? = some name ∧ name.getLast? = p.bytes.getLast? := by
  obtain ⟨before, part, hcut, hne, -⟩ := h.exists_cut
  refine ⟨part, (h.getLast?_names htidy).trans (hcut.getLast?_names hne), ?_⟩
  rw [hcut.eq, List.getLast?_append_of_ne_nil _ hne]

/-- Paths that end in different bytes offer different places (`getLast?_bytes`). -/
theorem ne_of_getLast? (h : fs.Offers p l) (h' : fs.Offers q l') (htidy : fs.Tidy)
    (hne : p.bytes.getLast? ≠ q.bytes.getLast?) : l ≠ l' := by
  rintro rfl
  obtain ⟨name, hname, hbyte⟩ := h.getLast?_bytes htidy
  obtain ⟨name', hname', hbyte'⟩ := h'.getLast?_bytes htidy
  rw [hname] at hname'
  cases hname'
  exact hne (hbyte.symm.trans hbyte')

/-- Paths that offer the same place and are spelt alike up to some point behind their last slash are
spelt alike (`getLast?_names`). -/
theorem eq_of_append (h : fs.Offers p l) (h' : fs.Offers q l) (htidy : fs.Tidy)
    {front first second : Bytes} (hp : p.bytes = front ++ first) (hq : q.bytes = front ++ second)
    (hfirst : Path.slash ∉ first) (hsecond : Path.slash ∉ second) (hne : first ≠ [])
    (hne' : second ≠ []) : first = second := by
  obtain ⟨before, part, hcut⟩ := Path.Cut.exists_cut front
  have hp' : Path.Cut p.bytes before (part ++ first) := hp ▸ hcut.append hfirst
  have hq' : Path.Cut q.bytes before (part ++ second) := hq ▸ hcut.append hsecond
  have hlast := (h.getLast?_names htidy).symm.trans (h'.getLast?_names htidy)
  rw [hp'.getLast?_names (List.append_ne_nil_of_right_ne_nil part hne),
    hq'.getLast?_names (List.append_ne_nil_of_right_ne_nil part hne')] at hlast
  exact List.append_cancel_left (Option.some.inj hlast)

/-- A path that was given an extension by `addExtension` and offers a place ends in the
extension. -/
theorem getLast?_addExtension {extension : String} (h : fs.Offers (p.addExtension extension) l) :
    (p.addExtension extension).bytes.getLast? =
      (Path.dot :: Utf8.encode extension).getLast? := by
  have hname := h.fileName?_ne_none
  unfold Path.addExtension at hname ⊢
  split at hname
  case h_1 hstem => exact absurd (Option.map_eq_none_iff.1 hstem) hname
  case h_2 => exact List.getLast?_append_of_ne_nil _ (List.cons_ne_nil _ _)

/-- A path that was given an extension by `withExtension` and offers a place ends in the
extension. -/
theorem getLast?_withExtension {extension : String} (h : fs.Offers (p.withExtension extension) l) :
    (p.withExtension extension).bytes.getLast? =
      (Path.dot :: Utf8.encode extension).getLast? := by
  unfold Path.withExtension at h ⊢
  split at h
  case h_1 => exact h.getLast?_addExtension
  case h_2 => exact h.getLast?_addExtension

end Offers

end FileSystem

end KeyWatch
