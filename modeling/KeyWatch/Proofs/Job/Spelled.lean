import KeyWatch.Job.Output
import KeyWatch.Proofs.Job.Grammar

/-!
# Commands as they are spelled

Entries in the output are pairs as commands have them. So a line that writes pairs, spelled as the
output spells entries, is the command that writes these pairs (`Job.Command.ofLine_writeLine`).
-/

namespace KeyWatch.Job.Command

open Text

variable {batch : List (String × String)}

/-- The characters of a pair as entries are written (`pairText`). -/
def pairChars (pair : String × String) : List Char := (pairText pair.1 ", " pair.2).toList

/-- A pair of fields as entries are written is spelled as a pair (`SpellsPair`). -/
theorem spellsPair_pairChars {pair : String × String} (hkey : IsField pair.1)
    (hvalue : IsField pair.2) : SpellsPair pair (pairChars pair) := by
  have hspace : IsGap [' '] := List.forall_mem_singleton.2 (.inl rfl)
  refine ⟨[], pair.1.toList, ' ' :: pair.2.toList, [], isGap_nil, isGap_nil, hkey.spells, ?_, ?_⟩
  · exact spellsField_iff.2 ⟨[' '], [], hspace, isGap_nil, hvalue, by simp⟩
  · simp [pairChars, pairText]

/-- Pairs of fields as entries are written, one behind another, are spelled as the pairs of a batch
(`SpellsItems`). -/
theorem spellsItems_pairChars (h : ∀ pair ∈ batch, IsField pair.1 ∧ IsField pair.2)
    (hne : batch ≠ []) : SpellsItems SpellsPair [] batch (batch.flatMap pairChars) := by
  induction batch with
  | nil => exact absurd rfl hne
  | cons pair batch ih =>
    obtain ⟨⟨hkey, hvalue⟩, hmore⟩ := List.forall_mem_cons.1 h
    have hhead := spellsPair_pairChars hkey hvalue
    rw [List.flatMap_cons, ← List.append_nil (pairChars pair)]
    cases batch with
    | nil => exact .one (by simpa using hhead)
    | cons => exact .cons hhead (ih hmore (List.cons_ne_nil _ _))

/-- The line that writes pairs, spelled as entries are written (`pairText`). -/
def writeLine (batch : List (String × String)) : String :=
  "WRITE [" ++ String.join (batch.map fun pair => pairText pair.1 ", " pair.2) ++ "]"

/-- The characters of a `writeLine` are the word, a space and the pairs in brackets. -/
theorem toList_writeLine (batch : List (String × String)) :
    (writeLine batch).toList =
      "WRITE".toList ++ [' '] ++ ('[' :: batch.flatMap pairChars ++ [']']) := by
  have hpairs : (String.join (batch.map fun pair => pairText pair.1 ", " pair.2)).toList =
      batch.flatMap pairChars := by
    rw [String.toList_join, List.flatMap_map]
    rfl
  rw [writeLine, String.toList_append, String.toList_append, hpairs, List.append_assoc]
  rfl

/-- A `writeLine` begins with a letter and ends with a bracket, so it is trimmed. -/
theorem trim_writeLine (batch : List (String × String)) :
    trim (writeLine batch) = writeLine batch := by
  apply trim_eq_self
  · rw [toList_writeLine]
    exact stops_cons.2 rfl
  · rw [toList_writeLine, ← List.append_assoc, List.reverse_concat]
    exact stops_cons.2 rfl

/-- The line that writes pairs (`writeLine`) is the command that writes them, if they are fields and
as many as a batch may have. -/
theorem ofLine_writeLine (h : ∀ pair ∈ batch, IsField pair.1 ∧ IsField pair.2) (hne : batch ≠ [])
    (hmax : batch.length ≤ maxBatchSize) : ofLine (writeLine batch) = .write batch := by
  have hspelled : Spells (.write batch) (writeLine batch).toList := by
    refine ⟨[' '], _, List.cons_ne_nil _ _, List.forall_mem_singleton.2 (.inl rfl), ?_,
      toList_writeLine batch⟩
    exact ⟨_, spellsItems_pairChars h hne, hmax, rfl⟩
  rw [ofLine_eq_read]
  refine LineGrammar.read_of_spells (g := grammar) ?_
  rw [trim_writeLine]
  exact hspelled

end KeyWatch.Job.Command
