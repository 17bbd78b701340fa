import Mathlib.Data.List.Basic
import Mathlib.Data.List.Induction
import Mathlib.Data.Nat.Digits.Defs
import KeyWatch.Text.Scan

/-!
# What tokens are

A run of characters of a class ends where a character is not of the class (`Text.Stops`), and a
token that is as long as it can be is such a run. So a token is found just where it stands with an
end behind it: words (`Text.word?_eq_some_iff`), gaps (`Text.gap?_eq_some_iff`), fields
(`Text.field?_eq_some_iff`) and numbers (`Text.number?_eq_some_iff`). A trimmed text is what stands
between the blanks at the ends (`Text.trim_spec`).
-/

namespace KeyWatch.Text

variable {p : Char → Bool} {cs run rest gap : List Char}

/-! ## Runs -/

/-- Characters that do not begin with one of a class, so a run of the class that stands before them
ends there. -/
def Stops (p : Char → Bool) (cs : List Char) : Prop := ∀ c ∈ cs.head?, p c = false

/-- At the end of a text every run stops. -/
theorem stops_nil (p : Char → Bool) : Stops p [] := nofun

/-- Whether a run stops (`Stops`) is decided by the next character alone. -/
@[simp] theorem stops_cons {c : Char} : Stops p (c :: cs) ↔ p c = false := by
  simp [Stops]

/-- Where characters outside the class stand before others at which a run stops, the run stops
already before them. -/
theorem Stops.append (hrun : ∀ c ∈ run, p c = false) (hrest : Stops p rest) :
    Stops p (run ++ rest) := by
  cases run with
  | nil => exact hrest
  | cons first run => exact stops_cons.2 (hrun first List.mem_cons_self)

/-- Before characters outside the class, of which there is at least one, a run stops whatever
follows. -/
theorem stops_append_of_ne_nil (hne : run ≠ []) (hrun : ∀ c ∈ run, p c = false)
    (rest : List Char) : Stops p (run ++ rest) := by
  obtain ⟨first, run, rfl⟩ := List.exists_cons_of_ne_nil hne
  exact stops_cons.2 (hrun first List.mem_cons_self)

/-- Where a run stops before some characters and others behind them, it stops before the first
alone. -/
theorem Stops.of_append (h : Stops p (run ++ rest)) : Stops p run :=
  fun c hc => h c (List.mem_head?_append_of_mem_head? hc)

/-- What is left when a run of the class was dropped does not begin with one of the class. -/
theorem stops_dropWhile (p : Char → Bool) (cs : List Char) : Stops p (cs.dropWhile p) := by
  intro c hc
  have hnot := List.head?_dropWhile_not p cs
  rw [Option.mem_def.1 hc] at hnot
  exact hnot

/-- A text is cut by `takeWhile` and `dropWhile` into a run of the class and a rest at which it
stops, and into nothing else. -/
theorem span_eq_iff : cs.takeWhile p = run ∧ cs.dropWhile p = rest ↔
    cs = run ++ rest ∧ (∀ c ∈ run, p c = true) ∧ Stops p rest := by
  constructor
  · rintro ⟨rfl, rfl⟩
    refine ⟨List.takeWhile_append_dropWhile.symm, fun c hc => ?_, stops_dropWhile p cs⟩
    exact List.all_eq_true.1 List.all_takeWhile c hc
  · rintro ⟨rfl, hrun, hrest⟩
    rw [List.takeWhile_append_of_pos hrun, List.dropWhile_append_of_pos hrun]
    cases rest with
    | nil => exact ⟨List.append_nil run, rfl⟩
    | cons c rest =>
      have hc : ¬p c = true := Bool.eq_false_iff.1 (stops_cons.1 hrest)
      rw [List.takeWhile_cons_of_neg hc, List.dropWhile_cons_of_neg hc]
      exact ⟨List.append_nil run, rfl⟩

/-- A text is a run of the class and a rest at which it stops (`Stops`) in just one way. -/
theorem run_inj {run' rest' : List Char} (hrun : ∀ c ∈ run, p c = true) (hrest : Stops p rest)
    (hrun' : ∀ c ∈ run', p c = true) (hrest' : Stops p rest') (h : run ++ rest = run' ++ rest') :
    run = run' ∧ rest = rest' := by
  obtain ⟨htake, hdrop⟩ := span_eq_iff.2 ⟨rfl, hrun, hrest⟩
  obtain ⟨htake', hdrop'⟩ := span_eq_iff.2 ⟨h, hrun', hrest'⟩
  exact ⟨htake.symm.trans htake', hdrop.symm.trans hdrop'⟩

/-! ## Words and gaps -/

/-- A word is found by `word?` just where the text begins with it, and the rest is what stands
behind. -/
theorem word?_eq_some_iff {word : List Char} : word? word cs = some rest ↔ cs = word ++ rest := by
  induction word generalizing cs with
  | nil => exact Option.some_inj
  | cons w word ih =>
    cases cs with
    | nil => simp [word?]
    | cons c cs =>
      rw [word?]
      split
      case isTrue h => rw [ih, h, List.cons_append, List.cons_inj_right]
      case isFalse h => simp [Ne.symm h]

/-- A word is found by `word?` where it was put. -/
theorem word?_append (word rest : List Char) : word? word (word ++ rest) = some rest :=
  word?_eq_some_iff.2 rfl

/-- Spaces and tabs, and nothing else; there may be none. -/
def IsGap (cs : List Char) : Prop := ∀ c ∈ cs, c = ' ' ∨ c = '\t'

/-- No characters are a gap. -/
theorem isGap_nil : IsGap [] := nofun

/-- A gap is told by the characters of `isSpaceOrTab`. -/
theorem isGap_iff : IsGap cs ↔ ∀ c ∈ cs, isSpaceOrTab c = true := by
  simp only [IsGap, isSpaceOrTab, Bool.or_eq_true, beq_iff_eq]

/-- What `skipGap` leaves is the rest at which the gap stops (`Stops`), so it takes the whole
gap. -/
theorem skipGap_eq_iff : skipGap cs = rest ↔
    ∃ gap, cs = gap ++ rest ∧ IsGap gap ∧ Stops isSpaceOrTab rest := by
  constructor
  · intro h
    obtain ⟨hcs, hgap, hrest⟩ := span_eq_iff.1 ⟨rfl, h⟩
    exact ⟨_, hcs, isGap_iff.2 hgap, hrest⟩
  · rintro ⟨gap, hcs, hgap, hrest⟩
    exact (span_eq_iff.2 ⟨hcs, isGap_iff.1 hgap, hrest⟩).2

/-- Before what `skipGap` leaves stands a gap. -/
theorem exists_eq_append_skipGap (cs : List Char) : ∃ gap, cs = gap ++ skipGap cs ∧ IsGap gap :=
  have ⟨gap, hcs, hgap, _⟩ := skipGap_eq_iff.1 (rfl : skipGap cs = _)
  ⟨gap, hcs, hgap⟩

/-- Where no gap stands nothing is skipped by `skipGap`. -/
theorem skipGap_of_stops (h : Stops isSpaceOrTab cs) : skipGap cs = cs :=
  skipGap_eq_iff.2 ⟨[], rfl, isGap_nil, h⟩

/-- To `skipGap` from within a gap is to skip what is left of it. -/
theorem skipGap_append (h : IsGap gap) (rest : List Char) :
    skipGap (gap ++ rest) = skipGap rest :=
  List.dropWhile_append_of_pos (isGap_iff.1 h)

/-- A gap is skipped at once: behind `skipGap` none is left. -/
@[simp] theorem skipGap_skipGap (cs : List Char) : skipGap (skipGap cs) = skipGap cs :=
  skipGap_of_stops (stops_dropWhile isSpaceOrTab cs)

/-- A gap that may not be empty is found by `gap?` just where a space or tab stands, and it goes up
to the first character that is neither. -/
theorem gap?_eq_some_iff : gap? cs = some rest ↔
    ∃ gap, cs = gap ++ rest ∧ gap ≠ [] ∧ IsGap gap ∧ Stops isSpaceOrTab rest := by
  cases cs with
  | nil => simp [gap?, eq_comm]
  | cons c cs =>
    rw [gap?]
    split
    case isTrue hc =>
      rw [Option.some_inj, skipGap_eq_iff]
      constructor
      · rintro ⟨gap, rfl, hgap, hrest⟩
        refine ⟨c :: gap, rfl, List.cons_ne_nil c gap, isGap_iff.2 ?_, hrest⟩
        exact List.forall_mem_cons.2 ⟨hc, isGap_iff.1 hgap⟩
      · rintro ⟨_ | ⟨first, gap⟩, h, hne, hgap, hrest⟩
        · exact absurd rfl hne
        · obtain ⟨-, rfl⟩ := List.cons_eq_cons.1 h
          exact ⟨gap, rfl, (List.forall_mem_cons.1 hgap).2, hrest⟩
    case isFalse hc =>
      constructor
      · exact nofun
      · rintro ⟨_ | ⟨first, gap⟩, h, hne, hgap, -⟩
        · exact absurd rfl hne
        · obtain ⟨rfl, -⟩ := List.cons_eq_cons.1 h
          exact absurd (isGap_iff.1 hgap c List.mem_cons_self) hc

/-! ## Fields and numbers -/

/-- A field is found by `field?` just where a run of the class stands that is not empty, is within
the limit, and is not followed by a character of the class. -/
theorem field?_eq_some_iff {limit : Nat} {text : String} :
    field? p limit cs = some (text, rest) ↔
      cs = text.toList ++ rest ∧ 0 < text.utf8ByteSize ∧ text.utf8ByteSize ≤ limit ∧
        (∀ c ∈ text.toList, p c = true) ∧ Stops p rest := by
  constructor
  · intro h
    simp only [field?] at h
    split at h
    case isTrue => cases h
    case isFalse hsize =>
      cases h
      obtain ⟨hpos, hmax⟩ := not_or.1 hsize
      obtain ⟨hcs, hall, hrest⟩ := span_eq_iff.1 ⟨rfl, rfl⟩
      rw [String.toList_ofList]
      exact ⟨hcs, Nat.pos_of_ne_zero hpos, Nat.not_lt.1 hmax, hall, hrest⟩
  · rintro ⟨hcs, hpos, hmax, hall, hrest⟩
    obtain ⟨htake, hdrop⟩ := span_eq_iff.2 ⟨hcs, hall, hrest⟩
    have hsize : ¬(text.utf8ByteSize = 0 ∨ limit < text.utf8ByteSize) := by omega
    simp only [field?, htake, hdrop, String.ofList_toList, if_neg hsize]

/-- A field is found behind a gap just where one stands behind a gap, if no character of a field can
belong to a gap. -/
theorem field?_skipGap_eq_some_iff (hp : ∀ c, isSpaceOrTab c = true → p c = false) {limit : Nat}
    {text : String} : field? p limit (skipGap cs) = some (text, rest) ↔
      ∃ gap, cs = gap ++ text.toList ++ rest ∧ IsGap gap ∧ 0 < text.utf8ByteSize ∧
        text.utf8ByteSize ≤ limit ∧ (∀ c ∈ text.toList, p c = true) ∧ Stops p rest := by
  constructor
  · intro h
    obtain ⟨hskip, hfield⟩ := field?_eq_some_iff.1 h
    obtain ⟨gap, hcs, hgap⟩ := exists_eq_append_skipGap cs
    refine ⟨gap, ?_, hgap, hfield⟩
    rw [List.append_assoc, ← hskip]
    exact hcs
  · rintro ⟨gap, rfl, hgap, hpos, hfield⟩
    have hne : text.toList ≠ [] := by
      intro hnil
      rw [String.toList_eq_nil_iff.1 hnil] at hpos
      exact Nat.lt_irrefl 0 hpos
    have hfirst : ∀ c ∈ text.toList, isSpaceOrTab c = false := by
      intro c hc
      refine Bool.eq_false_iff.2 fun hspace => ?_
      have hfalse := hp c hspace
      rw [hfield.2.1 c hc] at hfalse
      cases hfalse
    have hskip : skipGap (gap ++ text.toList ++ rest) = text.toList ++ rest := by
      refine skipGap_eq_iff.2 ⟨gap, ?_, hgap, stops_append_of_ne_nil hne hfirst rest⟩
      rw [List.append_assoc]
    exact hskip ▸ field?_eq_some_iff.2 ⟨rfl, hpos, hfield⟩

/-- Digits are read in base ten, the last of them first: `digitsValue` is the number of the
library's `Nat.ofDigits`. -/
theorem digitsValue_eq_ofDigits (digits : List Char) :
    digitsValue digits = Nat.ofDigits 10 (digits.reverse.map fun c => c.toNat - '0'.toNat) := by
  induction digits using List.reverseRecOn with
  | nil => rfl
  | append_singleton digits c ih =>
    rw [digitsValue, List.foldl_append, ← digitsValue, ih, List.reverse_concat, List.map_cons,
      Nat.ofDigits_cons, Nat.add_comm]
    rfl

/-- A number is found by `number?` just where a run of digits stands that is not empty, is below the
limit, and is not followed by a digit. -/
theorem number?_eq_some_iff {limit n : Nat} :
    number? limit cs = some (n, rest) ↔
      ∃ digits, cs = digits ++ rest ∧ digits ≠ [] ∧ (∀ c ∈ digits, c.isDigit = true) ∧
        digitsValue digits = n ∧ n < limit ∧ Stops Char.isDigit rest := by
  constructor
  · intro h
    simp only [number?] at h
    split at h
    case isTrue => cases h
    case isFalse hsize =>
      cases h
      obtain ⟨hne, hmax⟩ := not_or.1 hsize
      obtain ⟨hcs, hall, hrest⟩ := span_eq_iff.1 ⟨rfl, rfl⟩
      exact ⟨_, hcs, fun hnil => hne (List.isEmpty_iff.2 hnil), hall, rfl, Nat.not_le.1 hmax, hrest⟩
  · rintro ⟨digits, hcs, hne, hall, rfl, hmax, hrest⟩
    obtain ⟨htake, hdrop⟩ := span_eq_iff.2 ⟨hcs, hall, hrest⟩
    have hsize : ¬(digits.isEmpty = true ∨ limit ≤ digitsValue digits) :=
      not_or.2 ⟨fun hnil => hne (List.isEmpty_iff.1 hnil), Nat.not_le.2 hmax⟩
    simp only [number?, htake, hdrop, if_neg hsize]

/-! ## Trimmed texts -/

/-- A trimmed text is what stands between the blanks at the ends of a text (`isBlank`), and no blank
stands at its own ends. -/
theorem trim_spec (s : String) :
    ∃ before after, s.toList = before ++ (trim s).toList ++ after ∧
      (∀ c ∈ before ++ after, isBlank c = true) ∧ Stops isBlank (trim s).toList ∧
      Stops isBlank (trim s).toList.reverse := by
  let mid := s.toList.dropWhile isBlank
  obtain ⟨hs, hbefore, hmid⟩ :=
    span_eq_iff.1 ⟨(rfl : s.toList.takeWhile isBlank = _), (rfl : _ = mid)⟩
  obtain ⟨hrev, hafter, hlast⟩ :=
    span_eq_iff.1 ⟨(rfl : mid.reverse.takeWhile isBlank = _), (rfl : _ = mid.reverse.dropWhile _)⟩
  have htrim : (trim s).toList = (mid.reverse.dropWhile isBlank).reverse := String.toList_ofList
  have hcut : mid = (trim s).toList ++ (mid.reverse.takeWhile isBlank).reverse := by
    rw [htrim, ← List.reverse_append, ← hrev, List.reverse_reverse]
  refine ⟨s.toList.takeWhile isBlank, (mid.reverse.takeWhile isBlank).reverse, ?_, ?_, ?_, ?_⟩
  · rw [List.append_assoc, ← hcut]
    exact hs
  · intro c hc
    rcases List.mem_append.1 hc with hc | hc
    · exact hbefore c hc
    · exact hafter c (List.mem_reverse.1 hc)
  · exact Stops.of_append (hcut ▸ hmid)
  · rw [htrim, List.reverse_reverse]
    exact hlast

/-- No gap stands at the end of a trimmed text, since spaces and tabs are blanks. -/
theorem IsGap.eq_nil (hgap : IsGap gap) (h : Stops isBlank (cs ++ gap).reverse) : gap = [] := by
  rcases List.eq_nil_or_concat gap with rfl | ⟨init, last, rfl⟩
  · rfl
  · rw [List.concat_eq_append] at hgap h
    rw [← List.append_assoc, List.reverse_concat, stops_cons] at h
    have hlast := isGap_iff.1 hgap last (List.mem_append_right init (List.mem_singleton_self last))
    rw [isBlank_of_isSpaceOrTab hlast] at h
    cases h

/-- A text that neither begins nor ends with a blank is what `trim` leaves of it. -/
theorem trim_eq_self {s : String} (hfirst : Stops isBlank s.toList)
    (hlast : Stops isBlank s.toList.reverse) : trim s = s := by
  have hnone : ∀ {cs : List Char}, Stops isBlank cs → cs.dropWhile isBlank = cs := fun h =>
    (span_eq_iff.2 ⟨(List.nil_append _).symm, nofun, h⟩).2
  rw [trim, trimChars, hnone hfirst, hnone hlast, List.reverse_reverse, String.ofList_toList]

end KeyWatch.Text
