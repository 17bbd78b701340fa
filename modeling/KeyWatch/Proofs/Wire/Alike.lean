import KeyWatch.Proofs.Pipe.Merged
import KeyWatch.Wire.Notification
import KeyWatch.Wire.Registration
import KeyWatch.Wire.Request
import KeyWatch.Wire.Response

/-!
# What the readers of frames can tell

The readers of requests, responses, notifications and registrations get the same from sources that
look alike, however often they read: the same values, the same errors, and the same events before
each (`reads_alike`). Frames may be malformed or cut short, and reads may fail between them; the
next read goes on at the same place. An interruption is never what a reader reports.

A request is read in two steps, and both have to be blind: where the pieces are cut between the code
and the key, only the second step meets the interruption.
-/

namespace KeyWatch

variable {ε α β : Type}

/-! ## Interruptions are not reported -/

/-- A failure that is no interruption is not reported as one (`Error.isInterrupted`). -/
theorem Error.isInterrupted_ofIo {fault : IoFault} (h : fault.kind ≠ .interrupted)
    (context : String) : (Error.ofIo fault context).isInterrupted = false := by
  rw [Error.ofIo, if_neg h]
  split
  case isTrue => simp [Error.isInterrupted, Error.area, Error.ioKind?, h]
  case isFalse => rfl

/-- What was received is no interruption (`Error.isInterrupted`). -/
def Received.Uninterrupted (r : Received ε α) : Prop :=
  ∀ e, r.result = .error e → e.isInterrupted = false

/-- What `readFrame` reports is no interruption: it has tried again. -/
theorem uninterrupted_readFrame (what : String) (size : Nat) (s : Source ε) :
    (readFrame what size s).Uninterrupted := by
  intro e he
  simp only [readFrame] at he
  split at he
  case h_1 | h_2 => cases he
  case h_3 =>
    cases he
    rfl
  case h_4 fault houtcome =>
    cases he
    exact Error.isInterrupted_ofIo (kind_of_fill houtcome) what

/-- What cannot be decoded after it was received is no interruption either (`Received.decode`). -/
theorem Received.Uninterrupted.decode {r : Received ε α} (h : r.Uninterrupted)
    (f : α → Except ProtocolFault β) : (r.decode f).Uninterrupted := by
  intro e he
  simp only [Received.decode] at he
  split at he
  case h_1 a _ =>
    cases hf : f a with
    | ok b =>
      rw [hf] at he
      cases he
    | error fault =>
      rw [hf] at he
      cases he
      rfl
  case h_2 => cases he
  case h_3 fault hfault =>
    exact h e (hfault.trans (congrArg _ (Except.error.inj he)))

/-! ## Readers of frames -/

/-- A reader that is blind to how the bytes are cut and where reads are interrupted (`Blind`), and
reports no interruption. -/
structure Steadfast (read : Source ε → Received ε α) : Prop where
  blind : Blind read
  uninterrupted : ∀ s, (read s).Uninterrupted

/-- The reader of frames of a fixed size is `Steadfast`. -/
theorem steadfast_of_frame (what : String) {size : Nat} (hsize : 0 < size)
    (f : Bytes → Except ProtocolFault α) :
    Steadfast fun s : Source ε => (readFrame what size s).decode f where
  blind := (blind_readFrame what hsize).decode f
  uninterrupted s := (uninterrupted_readFrame what size s).decode f

namespace Request

/-- The second step of reading a request, `readPayload`, is `Steadfast`. -/
theorem steadfast_readPayload (b : UInt8) : Steadfast (readPayload b : Source ε → _) where
  blind s := by
    rw [readPayload, readPayload, blind_readFrame "request key" (by decide) s]
    simp only [Received.merged]
    split <;> rfl
  uninterrupted s := by
    rw [readPayload]
    split
    case h_1 =>
      intro e he
      cases he
      rfl
    case h_2 => exact (uninterrupted_readFrame _ _ s).decode _

/-- The reader of requests is `Steadfast`, in both of its steps. -/
theorem steadfast_read : Steadfast (read : Source ε → _) where
  blind s := by
    rw [read, read, blind_readFrame "request" Nat.one_pos s]
    generalize readFrame "request" 1 s = first
    simp only [Received.merged]
    split
    case h_2 => rfl
    case h_1 b _ _ =>
      split
      case isTrue => rfl
      case isFalse =>
        rw [(steadfast_readPayload b).blind first.rest]
        rfl
  uninterrupted s := by
    have hfirst := uninterrupted_readFrame "request" 1 s
    rw [read]
    generalize readFrame "request" 1 s = first at hfirst ⊢
    simp only
    split
    case h_2 => exact hfirst.decode decode
    case h_1 b _ _ =>
      split
      case isTrue => exact hfirst.decode decode
      case isFalse =>
        intro e he
        exact (steadfast_readPayload b).uninterrupted first.rest e he

end Request

/-! ## Repeated reads -/

/-- Whatever a steadfast reader reads, none of its `reads` reports an interruption. -/
theorem Steadfast.uninterrupted_of_mem_reads {read : Source ε → Received ε α}
    (h : Steadfast read) {count : Nat} {s : Source ε} {r : Received ε α}
    (hr : r ∈ reads read count s) : r.Uninterrupted := by
  induction count generalizing s with
  | zero => cases hr
  | succ count ih =>
    rcases List.mem_cons.1 hr with rfl | hr
    · exact h.uninterrupted s
    · exact ih hr

/-- Repeated reads of two sources go alike by `reads`: they give the same results, with the same
events before each, and none of them is an interruption. -/
structure ReadAlike (read : Source ε → Received ε α) (s t : Source ε) : Prop where
  results : ∀ count,
    (reads read count s).map Received.result = (reads read count t).map Received.result
  events : ∀ count,
    (reads read count s).map Received.events = (reads read count t).map Received.events
  uninterrupted : ∀ count, ∀ r ∈ reads read count s ++ reads read count t, r.Uninterrupted

/-- A steadfast reader reads alike from sources that are alike (`ReadAlike`). -/
theorem Steadfast.readAlike {read : Source ε → Received ε α} (h : Steadfast read)
    {s t : Source ε} (hst : s.Alike t) : ReadAlike read s t where
  results count := by
    have hmerged := congrArg (List.map Received.result) (h.blind.reads_of_alike hst count)
    rw [List.map_map, List.map_map] at hmerged
    exact hmerged
  events count := by
    have hmerged := congrArg (List.map Received.events) (h.blind.reads_of_alike hst count)
    rw [List.map_map, List.map_map] at hmerged
    exact hmerged
  uninterrupted count r hr := by
    rcases List.mem_append.1 hr with hr | hr
    · exact h.uninterrupted_of_mem_reads hr
    · exact h.uninterrupted_of_mem_reads hr

/-- From sources that differ only in how bytes are cut, in pieces without bytes and in reads that
are interrupted (`Source.Alike`), requests, responses, registrations and notifications are read
alike. -/
theorem reads_alike {s t : Source ε} (h : s.Alike t) :
    ReadAlike Request.read s t ∧ ReadAlike Response.read s t ∧ ReadAlike Registration.read s t ∧
      ReadAlike Notification.read s t := by
  refine ⟨Request.steadfast_read.readAlike h, ?_, ?_, ?_⟩
  · exact (steadfast_of_frame "response" (by decide) Response.decode).readAlike h
  · exact (steadfast_of_frame "registration" (by decide) Registration.decode).readAlike h
  · exact (steadfast_of_frame "notification" (by decide) Notification.decode).readAlike h

/-- A source in four pieces: an unknown code, a subscription, a failure in the middle of a key, the
end of the stream, and one byte more (`reads_alike`). -/
def brokenInPlaces : Source Unit :=
  [.bytes (0x39 :: 0x33 :: 0x6B :: List.replicate 40 0 ++ [0x34, 0x61]),
    .fail ⟨.timedOut, "boom"⟩, .ending, .bytes [0x32]]

/-- The source `brokenInPlaces` with the subscription cut behind its code and in its padding, with
an empty piece, and with interruptions in all these places and before the failure. -/
def brokenInMorePlaces : Source Unit :=
  [.bytes [0x39, 0x33], .fail ⟨.interrupted, "boom"⟩, .bytes (0x6B :: List.replicate 10 0),
    .bytes [], .bytes (List.replicate 30 0), .bytes [0x34], .fail ⟨.interrupted, "boom"⟩,
    .bytes [0x61], .fail ⟨.interrupted, "boom"⟩, .fail ⟨.timedOut, "boom"⟩,
    .fail ⟨.interrupted, "boom"⟩, .ending, .bytes [0x32]]

/-- From `brokenInPlaces` and `brokenInMorePlaces`, a reader of requests reports the unknown code,
reads the subscription, fails in the middle of the next key, finds the end, and goes on behind
it. -/
theorem reads_alike_brokenOff :
    brokenInPlaces.Alike brokenInMorePlaces ∧
      (reads Request.read 5 brokenInMorePlaces).map Received.result =
        [.error (.protocol (.unknownOp 0x39)), .ok (some (.subscribe "k")),
          .error (.transport (.failed "request key" ⟨.timedOut, "boom"⟩)), .ok none,
          .ok (some .disconnect)] := by
  have halike : brokenInPlaces.Alike brokenInMorePlaces := by
    unfold Source.Alike
    rfl
  refine ⟨halike, ?_⟩
  rw [← (reads_alike halike).1.results 5]
  rfl

end KeyWatch
