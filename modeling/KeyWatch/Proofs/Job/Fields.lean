import KeyWatch.Proofs.Job.Grammar

/-!
# The fields of job commands

Every key and every value in a command is a field (`Command.IsField`): a text that is not empty, of
at most `maxTextSize` bytes, without brackets, commas and blanks. The limit of the scanner is the
limit of the wire, so what a job writes or deletes can be told (`isField_of_ofLine`).
-/

namespace KeyWatch.Job.Command

open Text

/-- The fields of a command: the keys and values of the pairs to write, or the keys to read or
delete (`Command`). -/
def fields : Command → List String
  | write pairs => pairs.flatMap fun pair => [pair.1, pair.2]
  | read keys | delete keys => keys
  | _ => []

variable {text : String} {cs : List Char}

/-- What is spelled as a field is a text that `IsField`. -/
theorem SpellsField.isField (h : SpellsField text cs) : IsField text :=
  have ⟨_, _, _, _, hfield, _⟩ := spellsField_iff.1 h
  hfield

/-- What holds of whatever is spelled holds of all items of a batch behind a word
(`SpellsBatch`). -/
theorem SpellsArgument.forall_mem {α : Type} {Spelled : α → List Char → Prop} {p : α → Prop}
    (hp : ∀ x cs, Spelled x cs → p x) {word : String} {separator : List Char} {batch : List α}
    (h : SpellsArgument word (SpellsBatch Spelled separator) batch cs) : ∀ x ∈ batch, p x := by
  obtain ⟨_, _, -, -, ⟨inner, hinner, -, -⟩, -⟩ := h
  induction hinner with
  | one head => exact List.forall_mem_singleton.2 (hp _ _ head)
  | cons head _ ih => exact List.forall_mem_cons.2 ⟨hp _ _ head, ih⟩

/-- Every one of the `fields` of a command that is spelled is a text that `IsField`. -/
theorem Spells.isField {command : Command} (h : Spells command cs) :
    ∀ field ∈ command.fields, IsField field := by
  have hkeys : ∀ key cs, SpellsField key cs → IsField key := fun _ _ => SpellsField.isField
  cases command with
  | write pairs =>
    intro field hfield
    obtain ⟨pair, hpair, hfield⟩ := List.mem_flatMap.1 hfield
    have hpairs : ∀ pair cs, SpellsPair pair cs → IsField pair.1 ∧ IsField pair.2 :=
      fun _ _ ⟨_, _, _, _, _, _, hkey, hvalue, _⟩ => ⟨hkey.isField, hvalue.isField⟩
    have hboth := SpellsArgument.forall_mem hpairs h pair hpair
    rcases List.mem_cons.1 hfield with rfl | hfield
    · exact hboth.1
    · exact List.mem_singleton.1 hfield ▸ hboth.2
  | read | delete => exact SpellsArgument.forall_mem hkeys h
  | wait | «show» | backup | help | empty | invalid => exact nofun

/-- Every one of the `fields` of the command on a line is one that the wire can carry. -/
theorem isField_of_ofLine {line : String} : ∀ field ∈ (ofLine line).fields, IsField field := by
  rw [ofLine_eq_read]
  rcases grammar.read_cases line with ⟨-, h⟩ | h | ⟨-, -, h⟩
  · rw [h]
    exact nofun
  · exact h.isField
  · rw [h]
    exact nofun

end KeyWatch.Job.Command
