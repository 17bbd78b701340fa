import KeyWatch.Proofs.Client.Grammar
import KeyWatch.Proofs.Job.Fields

/-!
# Keys that clients and jobs can name

A client names a key to watch it and a job names it to read it, each on a line with the key in
brackets. The two grammars have their own classes of characters: a client can name every key that a
job can name, and besides the keys with a parenthesis in them, which no job can write
(`named_iff_watched`).
-/

namespace KeyWatch.Client

open Text

variable {key : String}

/-- A text that can be a key of a client's command, by its size and its characters
(`Command.isKeyChar`). -/
def IsKey (key : String) : Prop :=
  0 < key.utf8ByteSize ∧ key.utf8ByteSize ≤ maxTextSize ∧
    ∀ c ∈ key.toList, Command.isKeyChar c = true

/-- A line that ends with a bracket and does not begin with a blank is trimmed (`Text.trim`). -/
theorem trim_bracketed (head : String) (h : Stops isBlank (head ++ key ++ "]").toList) :
    trim (head ++ key ++ "]") = head ++ key ++ "]" := by
  refine trim_eq_self h ?_
  have hlast : (head ++ key ++ "]").toList = (head ++ key).toList ++ [']'] :=
    String.toList_append
  rw [hlast, List.reverse_concat]
  exact stops_cons.2 rfl

/-- A client can watch what `IsKey` and nothing else. -/
theorem ofLine_subscribe_iff :
    Command.ofLine ("SUBSCRIBE [" ++ key ++ "]") = .subscribe key ↔ IsKey key := by
  have hline : ("SUBSCRIBE [" ++ key ++ "]").toList =
      "SUBSCRIBE".toList ++ [' '] ++ ('[' :: [] ++ key.toList ++ [] ++ [']']) := by
    simp [String.toList_append]
  have htrim : trim ("SUBSCRIBE [" ++ key ++ "]") = "SUBSCRIBE [" ++ key ++ "]" :=
    trim_bracketed "SUBSCRIBE [" (hline.symm ▸ stops_cons.2 rfl)
  rw [@Command.ofLine_eq_iff _ (.subscribe key) nofun nofun, htrim]
  constructor
  · rintro ⟨_, _, -, -, ⟨_, _, -, -, hpos, hmax, hall, -⟩, -⟩
    exact ⟨hpos, hmax, fun c hc => Command.isKeyChar_iff.2 (hall c hc)⟩
  · rintro ⟨hpos, hmax, hall⟩
    have hspelled : Command.SpellsKey key ('[' :: [] ++ key.toList ++ [] ++ [']']) :=
      ⟨[], [], isGap_nil, isGap_nil, hpos, hmax, fun c hc => Command.isKeyChar_iff.1 (hall c hc),
        rfl⟩
    exact ⟨[' '], _, List.cons_ne_nil _ _, List.forall_mem_singleton.2 (.inl rfl), hspelled, hline⟩

/-- A job can read what `Job.Command.IsField` and nothing else. -/
theorem ofLine_read_iff :
    Job.Command.ofLine ("READ [" ++ key ++ "]") = .read [key] ↔ Job.Command.IsField key := by
  have hline : ("READ [" ++ key ++ "]").toList =
      "READ".toList ++ [' '] ++ ('[' :: key.toList ++ [']']) := by
    simp [String.toList_append]
  have htrim : trim ("READ [" ++ key ++ "]") = "READ [" ++ key ++ "]" :=
    trim_bracketed "READ [" (hline.symm ▸ stops_cons.2 rfl)
  constructor
  · intro h
    have hfields := @Job.Command.isField_of_ofLine ("READ [" ++ key ++ "]")
    rw [h] at hfields
    exact hfields key (List.mem_singleton_self key)
  · intro h
    have hbatch : Job.Command.SpellsBatch Job.Command.SpellsField [','] [key]
        ('[' :: key.toList ++ [']']) :=
      ⟨_, .one h.spells, Nat.le_of_ble_eq_true rfl, rfl⟩
    rw [Job.Command.ofLine_eq_read]
    refine LineGrammar.read_of_spells (g := Job.Command.grammar) ?_
    rw [htrim]
    exact ⟨[' '], _, List.cons_ne_nil _ _, List.forall_mem_singleton.2 (.inl rfl), hbatch, hline⟩

/-- A field (`Job.Command.IsField`) is a key without parentheses. -/
theorem isField_iff :
    Job.Command.IsField key ↔ IsKey key ∧ ∀ c ∈ key.toList, c ≠ '(' ∧ c ≠ ')' := by
  have hchar : ∀ c, Job.Command.isFieldChar c = true ↔
      Command.isKeyChar c = true ∧ c ≠ '(' ∧ c ≠ ')' := by
    intro c
    rw [Job.Command.isFieldChar_iff, Command.isKeyChar_iff]
    simp only [List.mem_cons, List.not_mem_nil, or_false, not_or]
    tauto
  simp only [Job.Command.IsField, IsKey, hchar, forall_and, and_assoc]

/-- A key is one that a job can name just if it is one that a client can watch and holds no
parenthesis. So every key that a job can name can be watched, and every key that can be watched can
be named by a job but for those with a parenthesis, which `Job.Command.ofLine` does not read. -/
theorem named_iff_watched (key : String) :
    Job.Command.ofLine ("READ [" ++ key ++ "]") = .read [key] ↔
      Command.ofLine ("SUBSCRIBE [" ++ key ++ "]") = .subscribe key ∧
        ∀ c ∈ key.toList, c ≠ '(' ∧ c ≠ ')' := by
  rw [ofLine_read_iff, ofLine_subscribe_iff, isField_iff]

/-- The key `f(x)` with parentheses can be watched by a client, and no line of a job reads it. -/
theorem named_iff_watched_fails :
    Command.ofLine "SUBSCRIBE [f(x)]" = .subscribe "f(x)" ∧
      Job.Command.ofLine "READ [f(x)]" ≠ .read ["f(x)"] := by
  have hkey : IsKey "f(x)" := ⟨by decide, by decide, List.all_eq_true.1 rfl⟩
  have hfield : ¬Job.Command.IsField "f(x)" := fun h => absurd (h.2.2 '(' (by decide)) (by decide)
  exact ⟨(@ofLine_subscribe_iff "f(x)").2 hkey, fun h => hfield ((@ofLine_read_iff "f(x)").1 h)⟩

end KeyWatch.Client
