import KeyWatch.Error

/-!
# Sinks of bytes

A sink takes what is written to it. Its script says how (`Allowance`): the n-th write is allowed at
most a number of bytes or fails, and after the script every write is taken whole. A frame is written
by as many writes as it takes (`offer`); an interrupted write is tried again and a write that takes
nothing is a failure.

What was taken is pending until the sink is flushed. A flush makes the pending bytes one emission,
and so does closing a sink with bytes pending. The flush of a sink may fail, after the emission
(`Sink.flushOutcome`).
-/

namespace KeyWatch

/-- What the next write of a `Sink` is allowed: at most some bytes, or nothing but a failure. -/
inductive Allowance where
  | accept (limit : Nat)
  | fail (fault : IoFault)
  deriving DecidableEq, Repr

/-- A place in a file, known by its number, at which the next bytes are written. -/
structure FileCursor where
  node : Nat
  offset : Nat
  deriving DecidableEq, Repr

/-- What takes the bytes that are written: the allowances of the next writes, the failure of every
flush but for the next ones, the bytes not flushed yet, the place in a file where they go, if they
go to a file, and the outcomes of the next flushes. -/
structure Sink where
  script : List Allowance := []
  flushFault : Option IoFault := none
  pending : Bytes := []
  cursor : Option FileCursor := none
  flushes : List (Option IoFault) := []
  deriving DecidableEq, Repr

/-- The failure of a write that takes nothing, for which `offer` does not try again. -/
def writeZero : IoFault := ⟨.writeZero, "failed to write whole buffer"⟩

/-- What became of bytes offered (`offer`): the failure, if any, the bytes taken, and the allowances
left. -/
structure Offered where
  fault : Option IoFault
  taken : Bytes
  script : List Allowance
  deriving DecidableEq, Repr

/-- Offers bytes until all are taken or a write fails. An interrupted write is tried again, and
behind the script every write is taken whole. -/
def offer : Bytes → List Allowance → Offered
  | b, [] => ⟨none, b, []⟩
  | [], script => ⟨none, [], script⟩
  | _, .accept 0 :: script => ⟨some writeZero, [], script⟩
  | b, .accept limit :: script =>
    let more := offer (b.drop limit) script
    { more with taken := b.take limit ++ more.taken }
  | b, .fail fault :: script =>
    if fault.kind = .interrupted then offer b script else ⟨some fault, [], script⟩

/-- What `offer` takes is all of the bytes, or after a failure fewer of them. So a frame counts as
written if and only if it went whole. -/
theorem offer_taken (b : Bytes) (script : List Allowance) :
    ((offer b script).fault = none ∧ (offer b script).taken = b) ∨
      ((offer b script).fault ≠ none ∧ (offer b script).taken.length < b.length) := by
  fun_induction offer b script with
  | case1 b => exact .inl ⟨rfl, rfl⟩
  | case2 script _ => exact .inl ⟨rfl, rfl⟩
  | case3 b script hne => exact .inr ⟨nofun, List.length_pos_iff.2 hne⟩
  | case4 b limit script _ _ more ih =>
    rcases ih with ⟨hfault, htaken⟩ | ⟨hfault, htaken⟩
    · refine .inl ⟨hfault, ?_⟩
      simp only [more, htaken, List.take_append_drop]
    · refine .inr ⟨hfault, ?_⟩
      replace htaken : more.taken.length < (b.drop limit).length := htaken
      rw [List.length_drop] at htaken
      rw [List.length_append, List.length_take]
      omega
  | case5 b fault script _ _ ih => exact ih
  | case6 b fault script hne _ => exact .inr ⟨nofun, List.length_pos_iff.2 hne⟩

namespace Sink

/-- Writes bytes, all or until a failure (`offer`). What was taken is pending. -/
def write (b : Bytes) (s : Sink) : Option IoFault × Sink :=
  let offered := offer b s.script
  (offered.fault, { s with script := offered.script, pending := s.pending ++ offered.taken })

/-- The failure of the next flush, if it fails: the first of `Sink.flushes`, and `Sink.flushFault`
where no outcome is given. -/
def flushOutcome (s : Sink) : Option IoFault := s.flushes.headD s.flushFault

/-- The sink past a flush: nothing is pending, the place in the file stands behind the bytes, and
the next flush has its own outcome. -/
def advance (s : Sink) : Sink :=
  { s with
    pending := []
    cursor := s.cursor.map fun c => { c with offset := c.offset + s.pending.length }
    flushes := s.flushes.tail }

end Sink

/-- What became of a frame (`Sink.send`): the error, if any, the bytes that a flush emitted, and the
sink after it. -/
structure Sending where
  error : Option Error
  emitted : Option Bytes
  sink : Sink
  deriving DecidableEq, Repr

namespace Sink

/-- Writes a frame and flushes it, while doing what the context names. A flush that fails has
emitted the bytes before. Operation: `write_frame`. -/
def send (context : String) (frame : Bytes) (s : Sink) : Sending :=
  match s.write frame with
  | (some fault, s) => ⟨some (.ofIo fault context), none, s⟩
  | (none, s) => ⟨s.flushOutcome.map (Error.ofIo · context), some s.pending, s.advance⟩

/-- Writes a frame if there is one (`Sink.send`). What cannot be encoded is an error that leaves the
sink as it is. -/
def sendEncoded (context : String) (encoded : Except ProtocolFault Bytes) (s : Sink) : Sending :=
  match encoded with
  | .ok frame => s.send context frame
  | .error fault => ⟨some (.protocol fault), none, s⟩

/-- What closing the sink emits, which is what was written and not flushed, if anything was. -/
def remainder (s : Sink) : Option Bytes :=
  if s.pending.isEmpty then none else some s.pending

/-! ## Flushes that go well -/

/-- The first failure that a flush will meet, if any will: that of one of the next flushes, or of
every flush behind them. -/
def firstFlushFault (s : Sink) : Option IoFault := (s.flushes.findSome? id).or s.flushFault

/-- No flush will fail if and only if all the outcomes of `Sink.flushes` are good and behind them
there is no `Sink.flushFault`. -/
theorem firstFlushFault_eq_none_iff {s : Sink} :
    s.firstFlushFault = none ↔ (∀ outcome ∈ s.flushes, outcome = none) ∧ s.flushFault = none := by
  simp only [firstFlushFault, Option.or_eq_none_iff, List.findSome?_eq_none_iff, id_eq]

/-- Where no flush will fail (`Sink.firstFlushFault`) the next one does not. -/
theorem flushOutcome_of_firstFlushFault {s : Sink} (h : s.firstFlushFault = none) :
    s.flushOutcome = none := by
  obtain ⟨hflushes, hfault⟩ := firstFlushFault_eq_none_iff.1 h
  cases hnext : s.flushes with
  | nil => rw [flushOutcome, hnext, List.headD_nil, hfault]
  | cons outcome rest =>
    rw [flushOutcome, hnext, List.headD_cons]
    exact hflushes outcome (hnext ▸ List.mem_cons_self)

/-- Where no flush will fail, none will after the next one either (`Sink.advance`). -/
theorem firstFlushFault_advance {s : Sink} (h : s.firstFlushFault = none) :
    s.advance.firstFlushFault = none := by
  obtain ⟨hflushes, hfault⟩ := firstFlushFault_eq_none_iff.1 h
  exact firstFlushFault_eq_none_iff.2
    ⟨fun outcome houtcome => hflushes outcome (List.mem_of_mem_tail houtcome), hfault⟩

end Sink

/-- The lines on which bytes leave: a notification channel, the response line of a session, known by
the name its owner gave it, and a place in a file. -/
inductive Line where
  | notification (channel : Nat)
  | response (name : String)
  | file (cursor : FileCursor)
  deriving DecidableEq, Repr

/-- Bytes that left on a `Line` together, by a flush or by the closing of a sink. -/
structure Emission where
  line : Line
  bytes : Bytes
  deriving DecidableEq, Repr

/-- The line on which a sink emits: its place in a file (`Sink.cursor`), or else the line that it
serves. -/
def Sink.line (s : Sink) (own : Line) : Line :=
  match s.cursor with
  | some cursor => .file cursor
  | none => own

end KeyWatch
