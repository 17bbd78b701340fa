import KeyWatch.Pipe.Sink

/-!
# Sinks that are interrupted

A sink is the interrupted form of another (`Sink.Interrupted`) if it does the same but for some
writes and flushes that are interrupted, each a finite number of times (`Interspersed`). A write
that is interrupted is tried again, so the interruptions of writes cannot be told from what the sink
takes (`offer_interspersed`). A flush is tried once. So a frame is sent as without interruptions
unless its flush is interrupted; then the same bytes have left, and the sending fails
(`Sink.Interrupted.send`).
-/

namespace KeyWatch

variable {α : Type} {extra usual : α → Prop}

/-- A row with extra elements put before some of its own. Behind its end the row goes on with usual
ones, so extra elements may stand behind some of these, too (`goOn`). -/
inductive Interspersed (extra usual : α → Prop) : List α → List α → Prop
  | nil : Interspersed extra usual [] []
  | keep (a : α) {row more : List α} (h : Interspersed extra usual row more) :
      Interspersed extra usual (a :: row) (a :: more)
  | add {a : α} {row more : List α} (ha : extra a) (h : Interspersed extra usual row more) :
      Interspersed extra usual row (a :: more)
  | goOn {a : α} {more : List α} (ha : usual a) (h : Interspersed extra usual [] more) :
      Interspersed extra usual [] (a :: more)

/-- Nothing need be put between the elements of a row (`Interspersed`). -/
theorem Interspersed.refl (row : List α) : Interspersed extra usual row row := by
  induction row with
  | nil => exact .nil
  | cons a row ih => exact .keep a ih

/-- A write that is interrupted (`IoKind.interrupted`). -/
def Allowance.Interrupts : Allowance → Prop
  | .accept _ => False
  | .fail fault => fault.kind = .interrupted

/-- A write that takes frames of a size whole (`Allowance.accept`). -/
def Allowance.Takes (size : Nat) : Allowance → Prop
  | .accept limit => size ≤ limit
  | .fail _ => False

/-- A flush that is interrupted (`IoKind.interrupted`). -/
def FlushInterrupted (outcome : Option IoFault) : Prop :=
  ∃ fault ∈ outcome, fault.kind = .interrupted

namespace Sink

/-- Two sinks that hold back the same bytes, for the same place (`Sink.pending`, `Sink.cursor`). -/
def Level (s t : Sink) : Prop := t.pending = s.pending ∧ t.cursor = s.cursor

/-- A sink, for frames of at most a size, with some of its writes and flushes interrupted
(`Interspersed`). -/
structure Interrupted (size : Nat) (s t : Sink) : Prop where
  script : Interspersed Allowance.Interrupts (Allowance.Takes size) s.script t.script
  flushes : Interspersed FlushInterrupted (· = s.flushFault) s.flushes t.flushes
  flushFault : t.flushFault = s.flushFault
  level : s.Level t

end Sink

/-! ## Writes -/

/-- No bytes are offered by `offer` without a failure, and no write is made. -/
theorem offer_nil (script : List Allowance) : offer [] script = ⟨none, [], script⟩ := by
  cases script <;> rfl

/-- Interruptions of writes do not show in what `offer` takes, nor in how the writing ends. By
induction on how they are `Interspersed`. -/
theorem offer_interspersed {size : Nat} {b : Bytes} {script script' : List Allowance}
    (hb : b.length ≤ size)
    (h : Interspersed Allowance.Interrupts (Allowance.Takes size) script script') :
    (offer b script').fault = (offer b script).fault ∧
      (offer b script').taken = (offer b script).taken ∧
      Interspersed Allowance.Interrupts (Allowance.Takes size) (offer b script).script
        (offer b script').script := by
  induction h generalizing b with
  | nil => exact ⟨rfl, rfl, .refl _⟩
  | @keep a row more h ih =>
    cases b with
    | nil => exact ⟨rfl, rfl, .keep a h⟩
    | cons first rest =>
      match a with
      | .accept 0 => exact ⟨rfl, rfl, h⟩
      | .accept (limit + 1) =>
        have hless : ((first :: rest).drop (limit + 1)).length ≤ size := by
          rw [List.length_drop]
          omega
        obtain ⟨hfault, htaken, hscript⟩ := ih hless
        exact ⟨hfault, congrArg (_ ++ ·) htaken, hscript⟩
      | .fail fault =>
        simp only [offer]
        split
        case isTrue => exact ih hb
        case isFalse => exact ⟨rfl, rfl, h⟩
  | @add a row more ha h ih =>
    cases b with
    | nil =>
      rw [offer_nil, offer_nil]
      exact ⟨rfl, rfl, .add ha h⟩
    | cons first rest =>
      cases a with
      | accept limit => exact absurd ha id
      | fail fault =>
        have hagain : offer (first :: rest) (.fail fault :: more) = offer (first :: rest) more :=
          if_pos ha
        rw [hagain]
        exact ih hb
  | @goOn a more ha h ih =>
    cases b with
    | nil => exact ⟨rfl, rfl, .goOn ha h⟩
    | cons first rest =>
      match a with
      | .fail fault => exact absurd ha id
      | .accept 0 => exact absurd (Nat.le_trans hb ha) (Nat.not_succ_le_zero _)
      | .accept (limit + 1) =>
        have hle : (first :: rest).length ≤ limit + 1 := Nat.le_trans hb ha
        have hwhole : offer (first :: rest) (.accept (limit + 1) :: more) =
            ⟨none, first :: rest, more⟩ := by
          simp only [offer, List.drop_of_length_le hle, List.take_of_length_le hle, offer_nil,
            List.append_nil]
        rw [hwhole]
        exact ⟨rfl, rfl, h⟩

/-! ## Frames -/

namespace Sink

variable {size : Nat} {s t : Sink}

/-- Sinks that are `Level` are so behind a flush. -/
theorem Level.advance (h : s.Level t) : s.advance.Level t.advance := by
  refine ⟨rfl, ?_⟩
  rw [Sink.advance, Sink.advance, h.1, h.2]

/-- A write by `Sink.write` goes as without interruptions. -/
theorem Interrupted.write (h : Interrupted size s t) {b : Bytes} (hb : b.length ≤ size) :
    (t.write b).1 = (s.write b).1 ∧ Interrupted size (s.write b).2 (t.write b).2 := by
  obtain ⟨hfault, htaken, hscript⟩ := offer_interspersed hb h.script
  refine ⟨hfault, hscript, h.flushes, h.flushFault, ?_, h.level.2⟩
  show t.pending ++ (offer b t.script).taken = s.pending ++ (offer b s.script).taken
  rw [h.level.1, htaken]

/-- A flush goes as without interruptions, or it is interrupted (`FlushInterrupted`). -/
theorem Interrupted.flush (h : Interrupted size s t) :
    t.flushOutcome = s.flushOutcome ∧ Interrupted size s.advance t.advance ∨
      t.flushOutcome ∈ t.flushes ∧ FlushInterrupted t.flushOutcome := by
  have hstep : t.flushes.headD s.flushFault = s.flushes.headD s.flushFault ∧
        Interspersed FlushInterrupted (· = s.flushFault) s.flushes.tail t.flushes.tail ∨
      t.flushes.headD s.flushFault ∈ t.flushes ∧
        FlushInterrupted (t.flushes.headD s.flushFault) := by
    have hflushes := h.flushes
    generalize t.flushes = interrupted at hflushes ⊢
    generalize s.flushes = calm at hflushes ⊢
    cases hflushes with
    | nil => exact .inl ⟨rfl, .nil⟩
    | keep outcome hmore => exact .inl ⟨rfl, hmore⟩
    | add houtcome _ => exact .inr ⟨List.mem_cons_self, houtcome⟩
    | goOn houtcome hmore => exact .inl ⟨houtcome, hmore⟩
  simp only [Sink.flushOutcome, h.flushFault]
  rcases hstep with ⟨houtcome, hmore⟩ | hinterrupted
  · exact .inl ⟨houtcome, h.script, hmore, h.flushFault, h.level.advance⟩
  · exact .inr hinterrupted

/-- What is sent by `Sink.send` leaves as without interruptions, and the sink is left at the same
place; and the sending ends as without interruptions, or its flush is interrupted. -/
theorem Interrupted.send (h : Interrupted size s t) (context : String) {frame : Bytes}
    (hframe : frame.length ≤ size) :
    (t.send context frame).emitted = (s.send context frame).emitted ∧
      (s.send context frame).sink.Level (t.send context frame).sink ∧
      (t.send context frame).sink.flushes ⊆ t.flushes ∧
      ((t.send context frame).error = (s.send context frame).error ∧
          Interrupted size (s.send context frame).sink (t.send context frame).sink ∨
        (∃ outcome ∈ t.flushes, FlushInterrupted outcome) ∧
          (t.send context frame).error = some (.interrupted context)) := by
  have hkept : (t.write frame).2.flushes = t.flushes := rfl
  obtain ⟨hfault, hwritten⟩ := h.write hframe
  unfold Sink.send
  generalize t.write frame = written' at *
  generalize s.write frame = written at *
  obtain ⟨fault, s'⟩ := written
  obtain ⟨fault', t'⟩ := written'
  obtain rfl : fault' = fault := hfault
  replace hkept : t'.flushes = t.flushes := hkept
  replace hwritten : Interrupted size s' t' := hwritten
  rw [← hkept]
  cases fault' with
  | some fault => exact ⟨rfl, hwritten.level, List.Subset.refl _, .inl ⟨rfl, hwritten⟩⟩
  | none =>
    refine ⟨congrArg some hwritten.level.1, hwritten.level.advance, ?_, ?_⟩
    · exact (List.tail_sublist t'.flushes).subset
    · rcases hwritten.flush with ⟨houtcome, hmore⟩ | ⟨hmem, fault, hfault, hkind⟩
      · exact .inl ⟨congrArg (Option.map _) houtcome, hmore⟩
      · refine .inr ⟨⟨_, hmem, fault, hfault, hkind⟩, ?_⟩
        show t'.flushOutcome.map (Error.ofIo · context) = some (.interrupted context)
        rw [Option.mem_def.1 hfault, Option.map_some, Error.ofIo, if_pos hkind]

end Sink

end KeyWatch
