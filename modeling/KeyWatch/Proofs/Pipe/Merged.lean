import KeyWatch.Proofs.Pipe.Steady

/-!
# Sources that look alike

Two sources look alike (`Source.Alike`) if they become equal when the reads that are interrupted and
the pieces without bytes are dropped and bytes that arrive one behind another are put together
(`Source.merged`). Nothing else may differ: every failure, every end of the stream and every event
stands between the same bytes in both.

A frame is filled from the merged source just as from the source (`fill_merged`), and what is left
is merged as well. So a reader that does nothing but fill frames is blind to the difference
(`Blind`), and however often it reads, it gets the same from sources that look alike
(`Blind.reads_of_alike`). The equation has to say what is left, too: after a failure the reader goes
on behind it, and there the sources must still look alike.
-/

namespace KeyWatch

variable {ε α β : Type}

/-! ## Merging -/

/-- Whether a piece brings nothing: no bytes, or an interruption (`IoKind.interrupted`). -/
def Piece.isIdle : Piece ε → Bool
  | .bytes content => content.isEmpty
  | .fail fault => fault.kind == .interrupted
  | .ending | .event _ => false

namespace Source

/-- A source with a piece before it; bytes before bytes are one piece with them (`Piece.bytes`). -/
def attach : Piece ε → Source ε → Source ε
  | .bytes front, .bytes content :: rest => .bytes (front ++ content) :: rest
  | p, rest => p :: rest

/-- The source without idle pieces (`Piece.isIdle`), and with the bytes that arrive one behind
another in one piece. -/
def merged (s : Source ε) : Source ε := (s.filter (!·.isIdle)).foldr attach []

/-- Sources that differ in how bytes are cut and where reads are interrupted, and in nothing else
(`merged`). -/
def Alike (s t : Source ε) : Prop := s.merged = t.merged

/-- A piece that is idle is dropped from the front by `merged`. -/
theorem merged_cons_of_idle {p : Piece ε} (h : p.isIdle = true) (s : Source ε) :
    merged (p :: s) = merged s := by
  rw [merged, List.filter_cons_of_neg (by simp [h])]
  rfl

/-- A piece that is not idle is attached by `merged` to what comes of the rest. -/
theorem merged_cons {p : Piece ε} (h : p.isIdle = false) (s : Source ε) :
    merged (p :: s) = attach p (merged s) := by
  rw [merged, List.filter_cons_of_pos (by simp [h])]
  rfl

/-- A piece of some bytes is attached by `merged` to what comes of the rest. -/
theorem merged_bytes {content : Bytes} (h : content ≠ []) (s : Source ε) :
    merged (.bytes content :: s) = attach (.bytes content) (merged s) := by
  have hidle : (Piece.bytes content : Piece ε).isIdle = false := List.isEmpty_eq_false_iff.2 h
  exact merged_cons hidle s

/-- What `attach` puts before something is not idle if its parts are not. -/
theorem isIdle_of_mem_attach {p q : Piece ε} {s : Source ε} (hp : p.isIdle = false)
    (hs : ∀ q ∈ s, q.isIdle = false) (h : q ∈ attach p s) : q.isIdle = false := by
  unfold attach at h
  split at h
  case h_1 front content rest =>
    rcases List.mem_cons.1 h with rfl | h
    · have hne : front ≠ [] := List.isEmpty_eq_false_iff.1 hp
      exact List.isEmpty_eq_false_iff.2 fun hnil => hne (List.append_eq_nil_iff.1 hnil).1
    · exact hs q (List.mem_cons_of_mem _ h)
  case h_2 =>
    rcases List.mem_cons.1 h with rfl | h
    · exact hp
    · exact hs q h

/-- A `merged` source has no idle piece. -/
theorem isIdle_of_mem_merged {q : Piece ε} {s : Source ε} (h : q ∈ s.merged) :
    q.isIdle = false := by
  induction s generalizing q with
  | nil => cases h
  | cons p s ih =>
    cases hp : p.isIdle with
    | true =>
      rw [merged_cons_of_idle hp] at h
      exact ih h
    | false =>
      rw [merged_cons hp] at h
      exact isIdle_of_mem_attach hp (fun q hq => ih hq) h

/-- The first bytes of a `merged` source are some. -/
theorem ne_nil_of_merged {s rest : Source ε} {content : Bytes}
    (h : s.merged = .bytes content :: rest) : content ≠ [] := by
  have hmem : Piece.bytes content ∈ s.merged := h ▸ List.mem_cons_self
  exact List.isEmpty_eq_false_iff.1 (isIdle_of_mem_merged hmem)

end Source

open Source

/-! ## Filling frames -/

/-- Bytes that do not fill a frame fill as much of it by `fill` whether they stand alone or not. -/
theorem fill_attach_of_lt {size : Nat} {got content : Bytes}
    (h : content.length < size - got.length) (s : Source ε) :
    fill size got (attach (.bytes content) s) = fill size (got ++ content) s := by
  unfold attach
  split
  case h_2 =>
    rw [fill]
    exact if_pos h
  case h_1 front more rest hfront =>
    obtain rfl := Piece.bytes.inj hfront
    have hmissing : size - (got ++ content).length = size - got.length - content.length := by
      rw [List.length_append]
      omega
    simp only [fill, hmissing]
    rw [List.length_append]
    by_cases hlt : more.length < size - got.length - content.length
    · rw [if_pos hlt, if_pos (by omega), List.append_assoc]
    · rw [if_neg hlt, if_neg (by omega)]
      by_cases heq : more.length = size - got.length - content.length
      · rw [if_pos heq, if_pos (by omega), List.append_assoc]
      · rw [if_neg heq, if_neg (by omega), List.take_append, List.drop_append,
          List.take_of_length_le (Nat.le_of_lt h), List.drop_of_length_le (Nat.le_of_lt h),
          List.append_assoc, List.nil_append]

/-- Bytes that fill a frame leave by `fill` what stands behind them, if that begins with no empty
piece. -/
theorem fill_attach_of_eq {size : Nat} {got content : Bytes}
    (h : content.length = size - got.length) {s : Source ε}
    (hs : ∀ more rest, s = .bytes more :: rest → more ≠ []) :
    fill size got (attach (.bytes content) s) = ⟨.full (got ++ content), [], s⟩ := by
  unfold attach
  split
  case h_2 =>
    rw [fill]
    simp only [if_neg (Nat.not_lt.2 (Nat.le_of_eq h.symm)), if_pos h]
  case h_1 front more rest hfront =>
    obtain rfl := Piece.bytes.inj hfront
    have hmore : 0 < more.length := List.length_pos_iff.2 (hs more rest rfl)
    simp only [fill, List.length_append]
    rw [if_neg (by omega), if_neg (by omega), List.take_left' h, List.drop_left' h]

/-- Bytes that are more than a frame misses leave by `fill` their rest, before what stands behind
them. -/
theorem fill_attach_of_gt {size : Nat} {got content : Bytes}
    (h : size - got.length < content.length) (s : Source ε) :
    fill size got (attach (.bytes content) s) =
      ⟨.full (got ++ content.take (size - got.length)), [],
        attach (.bytes (content.drop (size - got.length))) s⟩ := by
  have hle : size - got.length ≤ content.length := Nat.le_of_lt h
  unfold attach
  split
  case h_2 =>
    rw [fill]
    simp only [if_neg (Nat.not_lt.2 hle), if_neg (Nat.ne_of_gt h)]
    split
    case h_1 => simp_all
    case h_2 => rfl
  case h_1 front more rest hfront =>
    obtain rfl := Piece.bytes.inj hfront
    simp only [fill, List.length_append]
    rw [if_neg (by omega), if_neg (by omega), List.take_append_of_le_length hle,
      List.drop_append_of_le_length hle]

/-- To `fill` a frame from the merged source is to fill it from the source, and to merge what is
left. By induction on the source; the three lemmas on `attach` say what becomes of bytes. -/
theorem fill_merged {size : Nat} {got : Bytes} (hgot : got.length < size) (s : Source ε) :
    fill size got s.merged =
      { fill size got s with rest := Source.merged (fill size got s).rest } := by
  fun_induction fill size got s with
  | case1 got => rfl
  | case2 got rest => rfl
  | case3 got fault rest hkind ih =>
    have hidle : (Piece.fail fault : Piece ε).isIdle = true := beq_iff_eq.2 hkind
    rw [merged_cons_of_idle hidle]
    exact ih hgot
  | case4 got fault rest hkind =>
    have hidle : (Piece.fail fault : Piece ε).isIdle = false := beq_eq_false_iff_ne.2 hkind
    rw [merged_cons hidle]
    exact if_neg hkind
  | case5 got e rest filled ih =>
    have hrest : fill size got (merged (.event e :: rest)) =
        { fill size got (merged rest) with events := e :: (fill size got (merged rest)).events } :=
      rfl
    rw [hrest, ih hgot]
  | case6 got content rest missing hlt ih =>
    have hmore : (got ++ content).length < size := by
      rw [List.length_append]
      omega
    by_cases hne : content = []
    · subst hne
      rw [merged_cons_of_idle rfl]
      have hih := ih hmore
      rw [List.append_nil] at hih
      rw [List.append_nil]
      exact hih
    · rw [merged_bytes hne, fill_attach_of_lt hlt]
      exact ih hmore
  | case7 got content rest missing _ heq =>
    have hne : content ≠ [] := by
      rintro rfl
      simp only [List.length_nil] at heq
      omega
    rw [merged_bytes hne]
    exact fill_attach_of_eq heq fun _ _ => ne_nil_of_merged
  | case8 got content rest missing hlt hne =>
    have hgt : missing < content.length := by omega
    have hsome : content ≠ [] := by
      rintro rfl
      simp at hgt
    have hleft : content.drop missing ≠ [] := by
      rw [← List.length_pos_iff, List.length_drop]
      omega
    rw [merged_bytes hsome, merged_bytes hleft]
    exact fill_attach_of_gt hgt _

/-! ## Readers -/

/-- What was received, with what is left merged (`Source.merged`). -/
def Received.merged (r : Received ε α) : Received ε α := { r with rest := r.rest.merged }

/-- A reader that gets from a merged source what it gets from the source (`Source.merged`). -/
def Blind (read : Source ε → Received ε α) : Prop := ∀ s, read s.merged = (read s).merged

/-- What a number of reads give one after another, whatever each of them gives (`Received.rest`). -/
def reads (read : Source ε → Received ε α) : (count : Nat) → Source ε → List (Received ε α)
  | 0, _ => []
  | count + 1, s => read s :: reads read count (read s).rest

/-- The reading of a frame by `readFrame` is blind, since `fill` is. -/
theorem blind_readFrame (what : String) {size : Nat} (hsize : 0 < size) :
    Blind (readFrame what size : Source ε → _) := by
  intro s
  have hstart : ([] : Bytes).length < size := hsize
  simp only [readFrame, fill_merged hstart, Received.merged]

/-- To decode what was received does not touch what is left (`Received.merged`). -/
theorem merged_decode (f : α → Except ProtocolFault β) (r : Received ε α) :
    r.merged.decode f = (r.decode f).merged := rfl

/-- To decode what a blind reader gives is blind (`Received.decode`). -/
theorem Blind.decode {read : Source ε → Received ε α} (h : Blind read)
    (f : α → Except ProtocolFault β) : Blind fun s => (read s).decode f := by
  intro s
  show (read s.merged).decode f = ((read s).decode f).merged
  rw [h s, merged_decode]

/-- A blind reader gets from the merged source by `reads`, read by read, what it gets from the
source. -/
theorem Blind.reads_merged {read : Source ε → Received ε α} (h : Blind read) (count : Nat)
    (s : Source ε) : reads read count s.merged = (reads read count s).map Received.merged := by
  induction count generalizing s with
  | zero => rfl
  | succ count ih =>
    rw [reads, reads, List.map_cons, h s]
    exact congrArg _ (ih (read s).rest)

/-- From sources that are `Alike` a blind reader gets the same, and leaves sources that are
alike. -/
theorem Blind.reads_of_alike {read : Source ε → Received ε α} (h : Blind read) {s t : Source ε}
    (hst : s.Alike t) (count : Nat) :
    (reads read count s).map Received.merged = (reads read count t).map Received.merged := by
  rw [← h.reads_merged, ← h.reads_merged, hst]

end KeyWatch
