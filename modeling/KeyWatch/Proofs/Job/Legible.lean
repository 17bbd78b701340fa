import KeyWatch.Job.Output
import KeyWatch.Proofs.Job.Spelled
import KeyWatch.Proofs.Table.Contents

/-!
# What can be told from the values read

The line of values that a job reads can be taken apart again: no field holds a bracket, a
parenthesis or a comma, so each key and each value ends where it was ended. The text that stands for
the value of a missing key is a field itself, so what the line shows (`shown`) is the results but
for that: a missing key looks like one that holds this text, and nothing else looks alike
(`formatRead_legible`).
-/

namespace KeyWatch.Job

open Text Command

variable {first second : List (String × Option String)}

/-- What the line of values shows of a result: the text `noValue` for a missing value. -/
def shown (result : String × Option String) : String × String :=
  (result.1, result.2.getD noValue)

/-- A result of which the key is a field (`IsField`), and the value too if there is one. -/
def IsResult (result : String × Option String) : Prop :=
  IsField result.1 ∧ ∀ value ∈ result.2, IsField value

/-- The characters of a pair as values read are written (`pairText`). -/
def shownChars (pair : String × String) : List Char := (pairText pair.1 "," pair.2).toList

/-! ## Taking a line apart -/

/-- The text `noValue` that stands for a missing value is itself a field. -/
theorem isField_noValue : IsField noValue := ⟨by decide, by decide, List.all_eq_true.1 rfl⟩

/-- What is `shown` of a result is two fields. -/
theorem IsResult.shown {result : String × Option String} (h : IsResult result) :
    IsField (shown result).1 ∧ IsField (shown result).2 := by
  obtain ⟨key, value⟩ := result
  refine ⟨h.1, ?_⟩
  cases value with
  | none => exact isField_noValue
  | some value => exact h.2 value rfl

/-- The `shownChars` of a pair are a parenthesis, the key, a comma, the value and a parenthesis. -/
theorem shownChars_eq (pair : String × String) :
    shownChars pair = '(' :: (pair.1.toList ++ ',' :: (pair.2.toList ++ [')'])) := by
  simp [shownChars, pairText]

/-- A pair of fields at the start of a line can be told from what stands behind it: each field ends
where a character stands that no field holds (`isFieldChar`). -/
theorem shownChars_inj {pair pair' : String × String} {rest rest' : List Char}
    (hkey : IsField pair.1) (hvalue : IsField pair.2) (hkey' : IsField pair'.1)
    (hvalue' : IsField pair'.2) (h : shownChars pair ++ rest = shownChars pair' ++ rest') :
    pair = pair' ∧ rest = rest' := by
  simp only [shownChars_eq, List.cons_append, List.append_assoc, List.nil_append] at h
  obtain ⟨hfirst, h⟩ := run_inj hkey.2.2 (stops_cons.2 rfl) hkey'.2.2 (stops_cons.2 rfl)
    (List.cons_eq_cons.1 h).2
  obtain ⟨hsecond, h⟩ := run_inj hvalue.2.2 (stops_cons.2 rfl) hvalue'.2.2 (stops_cons.2 rfl)
    (List.cons_eq_cons.1 h).2
  refine ⟨Prod.ext (String.toList_inj.1 hfirst) (String.toList_inj.1 hsecond), ?_⟩
  exact (List.cons_eq_cons.1 h).2

/-- Pairs of fields up to a closing bracket can be told from their line; by induction with
`shownChars_inj`. -/
theorem flatMap_shownChars_inj {pairs pairs' : List (String × String)} {rest rest' : List Char}
    (hpairs : ∀ pair ∈ pairs, IsField pair.1 ∧ IsField pair.2)
    (hpairs' : ∀ pair ∈ pairs', IsField pair.1 ∧ IsField pair.2)
    (h : pairs.flatMap shownChars ++ ']' :: rest = pairs'.flatMap shownChars ++ ']' :: rest') :
    pairs = pairs' := by
  have hopen : ∀ (pair : String × String) (more line : List Char),
      ']' :: line ≠ shownChars pair ++ more := by
    intro pair more line he
    rw [shownChars_eq, List.cons_append] at he
    exact absurd (List.cons_eq_cons.1 he).1 (by decide)
  induction pairs generalizing pairs' with
  | nil =>
    cases pairs' with
    | nil => rfl
    | cons pair' more' =>
      rw [List.flatMap_cons, List.append_assoc] at h
      exact absurd h (hopen pair' _ rest)
  | cons pair more ih =>
    cases pairs' with
    | nil =>
      rw [List.flatMap_cons, List.append_assoc] at h
      exact absurd h.symm (hopen pair _ rest')
    | cons pair' more' =>
      obtain ⟨⟨hkey, hvalue⟩, hmore⟩ := List.forall_mem_cons.1 hpairs
      obtain ⟨⟨hkey', hvalue'⟩, hmore'⟩ := List.forall_mem_cons.1 hpairs'
      rw [List.flatMap_cons, List.flatMap_cons, List.append_assoc, List.append_assoc] at h
      obtain ⟨rfl, hrest⟩ := shownChars_inj hkey hvalue hkey' hvalue' h
      rw [ih hmore hmore' hrest]

/-! ## Lines of values -/

/-- The line that `formatRead` makes of results is what it shows of them, pair by pair, in
brackets. -/
theorem toList_formatRead (results : List (String × Option String)) :
    (formatRead results).toList =
      '[' :: ((results.map shown).flatMap shownChars ++ [']', '\n']) := by
  rw [formatRead, String.toList_append, String.toList_append, String.toList_join,
    List.flatMap_map, List.flatMap_map, List.append_assoc]
  rfl

/-- Results of fields have the same line by `formatRead` just if it shows the same of them. -/
theorem formatRead_eq_iff (hfirst : ∀ r ∈ first, IsResult r) (hsecond : ∀ r ∈ second, IsResult r) :
    formatRead first = formatRead second ↔ first.map shown = second.map shown := by
  have hshown : ∀ {results : List (String × Option String)}, (∀ r ∈ results, IsResult r) →
      ∀ pair ∈ results.map shown, IsField pair.1 ∧ IsField pair.2 := by
    intro results hresults pair hpair
    obtain ⟨r, hr, rfl⟩ := List.mem_map.1 hpair
    exact (hresults r hr).shown
  constructor
  · intro h
    have hline := congrArg String.toList h
    rw [toList_formatRead, toList_formatRead] at hline
    exact flatMap_shownChars_inj (hshown hfirst) (hshown hsecond) (List.cons_eq_cons.1 hline).2
  · intro h
    refine String.toList_inj.1 ?_
    rw [toList_formatRead, toList_formatRead, h]

/-- What a pair on a line is taken for: a missing value if it is `noValue`. -/
def taken (pair : String × String) : String × Option String :=
  (pair.1, if pair.2 = noValue then none else some pair.2)

/-- A result is `taken` for what it is, unless its value is the text that stands for none. -/
theorem taken_shown {result : String × Option String} (h : result.2 ≠ some noValue) :
    taken (shown result) = result := by
  obtain ⟨key, value⟩ := result
  cases value with
  | none => rfl
  | some value =>
    have hvalue : value ≠ noValue := fun he => h (congrArg some he)
    exact congrArg (Prod.mk key) (if_neg hvalue)

/-- Results of which none has the value `noValue` are the same if the same is shown of them. -/
theorem eq_of_map_shown (hfirst : ∀ r ∈ first, r.2 ≠ some noValue)
    (hsecond : ∀ r ∈ second, r.2 ≠ some noValue) (h : first.map shown = second.map shown) :
    first = second := by
  have htaken : ∀ {results : List (String × Option String)},
      (∀ r ∈ results, r.2 ≠ some noValue) → (results.map shown).map taken = results := by
    intro results hresults
    rw [List.map_map]
    exact (List.map_congr_left fun r hr => taken_shown (hresults r hr)).trans (List.map_id results)
  rw [← htaken hfirst, h, htaken hsecond]

/-- What a table is read for by `readMany` is on the line, and what a key is shown with there. -/
theorem shown_mem_readMany_iff {t : Table} {keys : List String} {key value : String} :
    (key, value) ∈ (t.readMany keys).map shown ↔
      key ∈ keys ∧ (t.read key).getD noValue = value := by
  obtain ⟨-, hperm, -⟩ := Table.inKeyOrder_stable (id : String → String) keys
  simp only [Table.readMany_eq_map, List.map_map, List.mem_map, hperm.mem_iff]
  constructor
  · rintro ⟨k, hk, he⟩
    obtain ⟨rfl, rfl⟩ := Prod.mk.inj he
    exact ⟨hk, rfl⟩
  · rintro ⟨hk, rfl⟩
    exact ⟨key, hk, rfl⟩

/-- The line that `formatRead` makes of values read can be taken apart again, but for a value that
is the text that stands for none: results of which the keys and values are fields have the same line
just if they are equal with this text for every missing value, and so, if no value is this text,
just if they are equal. And a line that shows a key as missing from a table is no line of a table
that contains the key with another value than this text. -/
theorem formatRead_legible (hfirst : ∀ r ∈ first, IsResult r) (hsecond : ∀ r ∈ second, IsResult r) :
    (formatRead first = formatRead second ↔ first.map shown = second.map shown) ∧
      ((∀ r ∈ first ++ second, r.2 ≠ some noValue) →
        (formatRead first = formatRead second ↔ first = second)) ∧
      ∀ (t u : Table) (keys others : List String), first = t.readMany keys →
        second = u.readMany others → formatRead first = formatRead second →
        ∀ key ∈ keys, t.contains key = false →
          key ∈ others ∧ (u.contains key = true → u.read key = some noValue) := by
  have hline := formatRead_eq_iff hfirst hsecond
  refine ⟨hline, fun hvalues => ?_, ?_⟩
  · obtain ⟨hnone, hnone'⟩ := List.forall_mem_append.1 hvalues
    exact ⟨fun h => eq_of_map_shown hnone hnone' (hline.1 h), fun h => h ▸ rfl⟩
  · rintro t u keys others rfl rfl h key hkey hmissing
    have hread : t.read key = none := by
      rw [← Option.not_isSome_iff_eq_none, Table.isSome_read, hmissing]
      exact Bool.false_ne_true
    have hshown : (key, noValue) ∈ (t.readMany keys).map shown :=
      shown_mem_readMany_iff.2 ⟨hkey, by rw [hread]; rfl⟩
    rw [hline.1 h] at hshown
    obtain ⟨hothers, hvalue⟩ := shown_mem_readMany_iff.1 hshown
    refine ⟨hothers, fun hcontains => ?_⟩
    rw [← Table.isSome_read] at hcontains
    obtain ⟨value, hvalue'⟩ := Option.isSome_iff_exists.1 hcontains
    rw [hvalue'] at hvalue ⊢
    exact congrArg some hvalue

/-- The results of two reads that found different things: a missing key, and a value that begins as
the text for a missing one does (`noValue`). -/
def nothingAndSomething : List (String × Option String) := [("a", none), ("b", some "KVSERRORS")]

/-- The same reads as in `nothingAndSomething` later, when the first key has got a value and the
second has lost its own. -/
def somethingAndNothing : List (String × Option String) := [("a", some "KVSERRORS"), ("b", none)]

/-- The results `nothingAndSomething` and `somethingAndNothing` can be told from their lines. -/
theorem formatRead_legible_twoReads :
    (∀ r ∈ nothingAndSomething ++ somethingAndNothing, IsResult r ∧ r.2 ≠ some noValue) ∧
      formatRead nothingAndSomething ≠ formatRead somethingAndNothing := by
  have hfield : IsField "a" ∧ IsField "b" ∧ IsField "KVSERRORS" :=
    ⟨⟨by decide, by decide, List.all_eq_true.1 rfl⟩, ⟨by decide, by decide, List.all_eq_true.1 rfl⟩,
      ⟨by decide, by decide, List.all_eq_true.1 rfl⟩⟩
  have hresults : ∀ r ∈ nothingAndSomething ++ somethingAndNothing,
      IsResult r ∧ r.2 ≠ some noValue := by
    simp [nothingAndSomething, somethingAndNothing, IsResult, hfield, noValue]
  refine ⟨hresults, fun h => ?_⟩
  obtain ⟨-, hequal, -⟩ := @formatRead_legible nothingAndSomething somethingAndNothing
    (fun r hr => (hresults r (List.mem_append_left _ hr)).1)
    (fun r hr => (hresults r (List.mem_append_right _ hr)).1)
  have he := (hequal fun r hr => (hresults r hr).2).1 h
  exact absurd he (by decide)

/-- A table that holds the text `noValue`, which a job can write, is read with the same line as the
table without the key. -/
theorem formatRead_ambiguous :
    let holding := (Table.empty.write "k" "KVSERROR").state
    Command.ofLine "WRITE [(k, KVSERROR)]" = .write [("k", "KVSERROR")] ∧
      Table.empty.readMany ["k"] = [("k", none)] ∧
      holding.readMany ["k"] = [("k", some "KVSERROR")] ∧
      formatRead (Table.empty.readMany ["k"]) = formatRead (holding.readMany ["k"]) ∧
      Table.empty.contains "k" = false ∧ holding.contains "k" = true := by
  have hkey : IsField "k" := ⟨by decide, by decide, List.all_eq_true.1 rfl⟩
  have hwrite : Command.ofLine (writeLine [("k", noValue)]) = .write [("k", noValue)] :=
    ofLine_writeLine (List.forall_mem_singleton.2 ⟨hkey, isField_noValue⟩) (List.cons_ne_nil _ _)
      (Nat.le_of_ble_eq_true rfl)
  have hmissing : Table.empty.readMany ["k"] = [("k", none)] := by decide +kernel
  have hheld : (Table.empty.write "k" "KVSERROR").state.readMany ["k"] = [("k", some noValue)] := by
    decide +kernel
  have hsame : formatRead [("k", none)] = formatRead [("k", some noValue)] := rfl
  exact ⟨hwrite, hmissing, hheld, by rw [hmissing, hheld, hsame], rfl, rfl⟩

end KeyWatch.Job
