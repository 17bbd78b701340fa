import KeyWatch.Pipe.Source

/-!
# Reading what arrives in any pieces

A source is steady (`Source.Steady`) if its reads bring bytes, be it in pieces of any size, or are
interrupted, until the stream ends. What a reader gets of a steady source depends on the bytes
alone: a frame is filled with the next bytes (`fill_of_steady`), and frames that are sent one behind
another are read one after another (`values_go_of_steady`).
-/

namespace KeyWatch

variable {ε α : Type}

/-- A piece that brings bytes, is an event, or only interrupts a read (`IoKind.interrupted`). -/
def Piece.Steady : Piece ε → Prop
  | .bytes _ | .event _ => True
  | .fail fault => fault.kind = .interrupted
  | .ending => False

/-- A source whose reads bring bytes, until it is over (`Piece.Steady`). -/
def Source.Steady (s : Source ε) : Prop := ∀ p ∈ s, p.Steady

namespace Source

/-- The `weight` of a source is that of its first piece and of the rest. -/
@[simp] theorem weight_cons (p : Piece ε) (s : Source ε) :
    weight (p :: s) = p.weight + weight s := rfl

/-- A steady source is steady behind its first piece (`Source.Steady`). -/
theorem Steady.tail {p : Piece ε} {s : Source ε} (h : Steady (p :: s)) : Steady s :=
  fun q hq => h q (List.mem_cons_of_mem p hq)

end Source

/-- To `fill` a frame leaves a source with no more weight. -/
theorem weight_fill_le (size : Nat) (got : Bytes) (source : Source ε) :
    Source.weight (fill size got source).rest ≤ source.weight := by
  fun_induction fill size got source with
  | case1 => exact Nat.le_refl _
  | case2 got rest => exact Nat.le_add_left _ _
  | case3 got fault rest _ ih => exact Nat.le_trans ih (Nat.le_add_left _ _)
  | case4 got fault rest => exact Nat.le_add_left _ _
  | case5 got e rest filled ih => exact Nat.le_trans ih (Nat.le_add_left _ _)
  | case6 got content rest missing _ ih => exact Nat.le_trans ih (Nat.le_add_left _ _)
  | case7 got content rest => exact Nat.le_add_left _ _
  | case8 got content rest missing =>
    rw [Source.weight_cons, Source.weight_cons, Piece.weight, Piece.weight, List.length_drop]
    omega

/-- To `fill` a frame that is missing bytes leaves a source that is not over with less weight. -/
theorem weight_fill_lt {size : Nat} {got : Bytes} {source : Source ε} (hgot : got.length < size)
    (h : source ≠ []) : Source.weight (fill size got source).rest < source.weight := by
  fun_induction fill size got source with
  | case1 => exact absurd rfl h
  | case2 got rest => exact Nat.lt_add_of_pos_left Nat.one_pos
  | case3 got fault rest _ ih =>
    exact Nat.lt_of_le_of_lt (weight_fill_le size got rest) (Nat.lt_add_of_pos_left Nat.one_pos)
  | case4 got fault rest => exact Nat.lt_add_of_pos_left Nat.one_pos
  | case5 got e rest filled ih =>
    exact Nat.lt_of_le_of_lt (weight_fill_le size got rest) (Nat.lt_add_of_pos_left Nat.one_pos)
  | case6 got content rest missing _ ih =>
    exact Nat.lt_of_le_of_lt (weight_fill_le size (got ++ content) rest)
      (Nat.lt_add_of_pos_left (Nat.succ_pos _))
  | case7 got content rest => exact Nat.lt_add_of_pos_left (Nat.succ_pos _)
  | case8 got content rest missing hlt hne =>
    rw [Source.weight_cons, Source.weight_cons, Piece.weight, Piece.weight, List.length_drop]
    omega

/-- At the end of the stream no frame is full (`Fill.atEnd`). -/
theorem Fill.atEnd_ne_full (got frame : Bytes) : Fill.atEnd got ≠ .full frame := by
  unfold Fill.atEnd
  split <;> nofun

/-- The end of the stream is no failure (`Fill.atEnd`). -/
theorem Fill.atEnd_ne_failed (got : Bytes) (fault : IoFault) : Fill.atEnd got ≠ .failed fault := by
  unfold Fill.atEnd
  split <;> nofun

/-- A frame that `fill` fills is as long as it should be. -/
theorem length_of_fill {size : Nat} {got frame : Bytes} {source : Source ε}
    (hgot : got.length < size) (h : (fill size got source).outcome = .full frame) :
    frame.length = size := by
  fun_induction fill size got source with
  | case1 got => exact absurd h (Fill.atEnd_ne_full got frame)
  | case2 got rest => exact absurd h (Fill.atEnd_ne_full got frame)
  | case3 got fault rest _ ih => exact ih hgot h
  | case4 => cases h
  | case5 got e rest filled ih => exact ih hgot h
  | case6 got content rest missing hlt ih =>
    refine ih ?_ h
    rw [List.length_append]
    omega
  | case7 got content rest missing _ heq =>
    cases h
    rw [List.length_append]
    omega
  | case8 got content rest missing hlt hne =>
    cases h
    rw [List.length_append, List.length_take]
    omega

/-- A read that is interrupted is no failure by which `fill` ends: it is tried again. -/
theorem kind_of_fill {size : Nat} {got : Bytes} {source : Source ε} {fault : IoFault}
    (h : (fill size got source).outcome = .failed fault) : fault.kind ≠ .interrupted := by
  fun_induction fill size got source with
  | case1 got => exact absurd h (Fill.atEnd_ne_failed got fault)
  | case2 got rest => exact absurd h (Fill.atEnd_ne_failed got fault)
  | case3 got _ rest _ ih => exact ih h
  | case4 got _ rest hkind =>
    cases h
    exact hkind
  | case5 got e rest filled ih => exact ih h
  | case6 got content rest missing _ ih => exact ih h
  | case7 | case8 => cases h

/-- A frame is filled by `fill` with the next bytes of a steady source, as far as they go, and
leaves the others. By induction on the source, as `fill` goes through it. -/
theorem fill_of_steady {size : Nat} {got : Bytes} {source : Source ε} (hs : source.Steady)
    (hgot : got.length < size) :
    (fill size got source).outcome =
        (if got.length + source.content.length < size then .atEnd (got ++ source.content)
          else .full (got ++ source.content.take (size - got.length))) ∧
      Source.content (fill size got source).rest = source.content.drop (size - got.length) ∧
      Source.Steady (fill size got source).rest := by
  fun_induction fill size got source with
  | case1 got =>
    refine ⟨?_, List.drop_nil.symm, fun _ hp => absurd hp List.not_mem_nil⟩
    have hnone : Source.content ([] : Source ε) = [] := rfl
    rw [hnone, List.append_nil]
    exact (if_pos hgot).symm
  | case2 got rest => exact absurd (hs .ending List.mem_cons_self) id
  | case3 got fault rest _ ih => exact ih hs.tail hgot
  | case4 got fault rest hkind => exact absurd (hs (.fail fault) List.mem_cons_self) hkind
  | case5 got e rest filled ih => exact ih hs.tail hgot
  | case6 got content rest missing hlt ih =>
    have hmore : (got ++ content).length < size := by
      rw [List.length_append]
      omega
    obtain ⟨houtcome, hcontent, hsteady⟩ := ih hs.tail hmore
    have hmissing : size - (got ++ content).length = missing - content.length := by
      rw [List.length_append]
      omega
    have hwhole : Source.content (.bytes content :: rest) = content ++ Source.content rest := rfl
    refine ⟨?_, ?_, hsteady⟩
    · rw [houtcome, hmissing, hwhole, List.take_append, List.take_of_length_le (Nat.le_of_lt hlt)]
      simp only [List.length_append, List.append_assoc, Nat.add_assoc]
      rfl
    · rw [hcontent, hmissing, hwhole, List.drop_append, List.drop_of_length_le (Nat.le_of_lt hlt),
        List.nil_append]
  | case7 got content rest missing _ heq =>
    have hwhole : Source.content (.bytes content :: rest) = content ++ Source.content rest := rfl
    refine ⟨?_, ?_, hs.tail⟩
    · rw [hwhole, List.length_append, if_neg (by omega), List.take_append_of_le_length (by omega),
        List.take_of_length_le (by omega)]
    · exact (List.drop_left' heq).symm
  | case8 got content rest missing hlt hne =>
    have hwhole : Source.content (.bytes content :: rest) = content ++ Source.content rest := rfl
    refine ⟨?_, ?_, ?_⟩
    · rw [hwhole, List.length_append, if_neg (by omega), List.take_append_of_le_length (by omega)]
    · rw [hwhole, List.drop_append_of_le_length (by omega)]
      rfl
    · intro p hp
      rcases List.mem_cons.1 hp with rfl | hp
      · trivial
      · exact hs.tail p hp

/-! ## Frames one behind another -/

/-- What is left short of a frame gives no value by `readFrame`. -/
theorem result_of_short {what : String} {size : Nat} {f : Bytes → Except ProtocolFault α}
    {source : Source ε} (hs : source.Steady) (h : source.content.length < size) (a : α) :
    ((readFrame what size source).decode f).result ≠ .ok (some a) := by
  have hsize : ([] : Bytes).length < size := Nat.lt_of_le_of_lt (Nat.zero_le _) h
  obtain ⟨houtcome, -, -⟩ := fill_of_steady hs hsize
  rw [List.length_nil, Nat.zero_add, if_pos h, Fill.atEnd] at houtcome
  intro hresult
  split at houtcome
  case isTrue => simp [Received.decode, readFrame, houtcome] at hresult
  case isFalse => simp [Received.decode, readFrame, houtcome] at hresult

/-- A frame that the end of the stream cuts short is a failure of `readFrame` by which the other
side has gone. -/
theorem readFrame_of_short (what : String) {size : Nat} {source : Source ε} (hs : source.Steady)
    (hne : source.content ≠ []) (h : source.content.length < size) :
    (readFrame what size source).result =
      .error (.io (truncated what source.content.length size)) := by
  have hstart : ([] : Bytes).length < size := Nat.lt_of_le_of_lt (Nat.zero_le _) h
  obtain ⟨houtcome, -, -⟩ := fill_of_steady hs hstart
  rw [List.length_nil, Nat.zero_add, if_pos h, List.nil_append, Fill.atEnd, if_neg (by simpa)]
    at houtcome
  simp only [readFrame, houtcome]

/-- A frame is read by `readFrame` off the bytes that begin with it, and a steady source is left. -/
theorem readFrame_of_frame (what : String) {size : Nat} (hsize : 0 < size) {source : Source ε}
    (hs : source.Steady) {frame rest : Bytes} (hframe : frame.length = size)
    (hcontent : source.content = frame ++ rest) :
    (readFrame what size source).result = .ok (some frame) ∧
      Source.content (readFrame what size source).rest = rest ∧
      Source.Steady (readFrame what size source).rest ∧
      Source.weight (readFrame what size source).rest < source.weight := by
  have hstart : ([] : Bytes).length < size := hsize
  obtain ⟨houtcome, hleft, hsteady⟩ := fill_of_steady hs hstart
  have hlong : ¬([] : Bytes).length + source.content.length < size := by
    rw [hcontent, List.length_append, hframe]
    omega
  rw [if_neg hlong, List.length_nil, Nat.sub_zero, hcontent, List.nil_append,
    List.take_left' hframe] at houtcome
  rw [List.length_nil, Nat.sub_zero, hcontent, List.drop_left' hframe] at hleft
  have hne : source ≠ [] := by
    rintro rfl
    have hnone : (frame ++ rest).length = 0 := congrArg List.length hcontent.symm
    rw [List.length_append, hframe] at hnone
    omega
  refine ⟨?_, hleft, hsteady, weight_fill_lt hsize hne⟩
  simp only [readFrame, houtcome]

/-- Frames that are sent one after another are read one after another by `readAll.go`, and decoded;
by induction on the frames. -/
theorem values_go_of_steady (what : String) {size : Nat} {f : Bytes → Except ProtocolFault α}
    (hsize : 0 < size) {frames : List (Bytes × α)} {tail : Bytes}
    (hframes : ∀ p ∈ frames, p.1.length = size ∧ f p.1 = .ok p.2) {fuel : Nat} {source : Source ε}
    (hfuel : source.weight < fuel) (hs : source.Steady)
    (hcontent : source.content = frames.flatMap Prod.fst ++ tail) :
    ∃ more, Received.values (readAll.go (fun s => (readFrame what size s).decode f) fuel source) =
      frames.map Prod.snd ++ more ∧ (tail.length < size → more = []) := by
  induction frames generalizing fuel source with
  | nil =>
    obtain ⟨left, rfl⟩ : ∃ n, fuel = n + 1 := ⟨fuel - 1, by omega⟩
    refine ⟨Received.values
      (readAll.go (fun s => (readFrame what size s).decode f) (left + 1) source), rfl,
      fun hshort => ?_⟩
    replace hcontent : source.content = tail := hcontent
    rw [readAll.go, Received.values]
    split
    case h_1 a hresult => exact absurd hresult (result_of_short hs (hcontent ▸ hshort) a)
    case h_2 => rfl
  | cons p frames ih =>
    obtain ⟨left, rfl⟩ : ∃ n, fuel = n + 1 := ⟨fuel - 1, by omega⟩
    obtain ⟨hlength, hdecode⟩ := hframes p List.mem_cons_self
    rw [List.flatMap_cons, List.append_assoc] at hcontent
    obtain ⟨hresult, hleft, hsteady, hweight⟩ := readFrame_of_frame what hsize hs hlength hcontent
    obtain ⟨more, hmore, hend⟩ := ih (fun q hq => hframes q (List.mem_cons_of_mem p hq))
      (Nat.lt_of_lt_of_le hweight (Nat.le_of_lt_succ hfuel)) hsteady hleft
    have hvalue : ((readFrame what size source).decode f).result = .ok (some p.2) := by
      simp only [Received.decode, hresult, hdecode]
      rfl
    have hne : source.isEmpty = false := by
      cases source with
      | nil => exact absurd hweight (Nat.not_lt_zero _)
      | cons => rfl
    refine ⟨more, ?_, hend⟩
    rw [readAll.go, Received.values]
    simp only [hvalue, hne, Bool.false_eq_true, if_false]
    exact congrArg (p.2 :: ·) hmore

end KeyWatch
