import Mathlib.Data.List.SplitBy
import KeyWatch.Engine

/-!
# Delivery on channels that take everything

A channel is willing (`Channels.Willing`) if it is open, has a line of its own, holds nothing back
and takes every byte, be it in pieces. A notice that has a frame leaves a willing channel as that
frame and nothing else, and the channel stays willing. The store lets leave what the channels let
leave, notice by notice (`Engine.deliver_eq`). So what is delivered on willing channels leaves it
whole, frame by frame and in order (`Engine.sent_deliver`).
-/

namespace KeyWatch

/-- The bytes of a notice on its channel's line, if its notification has a frame
(`Notification.encode`). -/
def Notice.emission? (n : Notice) : Except ProtocolFault Emission :=
  n.notification.encode.map fun bytes => ⟨.notification n.channel, bytes⟩

/-- What `emission?` gives for a notice is the frame of its notification, on the line of its
channel. -/
theorem Notice.emission?_eq_ok {n : Notice} {out : Emission} (h : n.emission? = .ok out) :
    ∃ frame, n.notification.encode = .ok frame ∧ out = ⟨.notification n.channel, frame⟩ := by
  unfold Notice.emission? at h
  cases hframe : n.notification.encode with
  | error fault =>
    rw [hframe] at h
    cases h
  | ok frame =>
    rw [hframe] at h
    cases h
    exact ⟨frame, rfl, rfl⟩

/-- A notice whose key and value are within `maxTextSize` has a frame, so `emission?` succeeds. -/
theorem Notice.exists_emission {n : Notice} (hkey : n.notification.key.utf8ByteSize ≤ maxTextSize)
    (hvalue : n.notification.value.utf8ByteSize ≤ maxTextSize) :
    ∃ out, Except.ok out = n.emission? := by
  have hk : encodeField "key" textWidth n.notification.key = .ok _ :=
    encodeField_eq_ok_iff.2 ⟨Nat.lt_succ_of_le hkey, rfl⟩
  have hv : encodeField "value" textWidth n.notification.value = .ok _ :=
    encodeField_eq_ok_iff.2 ⟨Nat.lt_succ_of_le hvalue, rfl⟩
  exact ⟨_, by rw [Notice.emission?, Notification.encode, hk, hv]; rfl⟩

/-- An allowance with which a write goes on: some bytes are taken, or the write is interrupted and
is tried again by `offer`. -/
def Allowance.Willing : Allowance → Prop
  | .accept limit => 0 < limit
  | .fail fault => fault.kind = .interrupted

/-- A sink that takes every byte and every flush and holds nothing back: its script is of willing
allowances (`Allowance.Willing`), and it has a line of its own. -/
structure Sink.Willing (s : Sink) : Prop where
  script : ∀ a ∈ s.script, a.Willing
  flush : s.firstFlushFault = none
  pending : s.pending = []
  line : s.cursor = none

/-- A channel that is open and whose sink takes everything (`Sink.Willing`). -/
def Channels.Willing (cs : Channels) (id : ChannelId) : Prop :=
  ∃ sink, cs.sink? id = some sink ∧ sink.Willing

/-! ## Sinks -/

/-- Bytes that are offered to willing writes by `offer` are taken whole and without fault, and the
writes that are left are willing. -/
theorem offer_of_willing (b : Bytes) (script : List Allowance) (h : ∀ a ∈ script, a.Willing) :
    (offer b script).fault = none ∧ (offer b script).taken = b ∧
      ∀ a ∈ (offer b script).script, a.Willing := by
  fun_induction offer b script with
  | case1 b => exact ⟨rfl, rfl, h⟩
  | case2 script _ => exact ⟨rfl, rfl, h⟩
  | case3 b script _ => exact absurd (h (.accept 0) List.mem_cons_self) (Nat.lt_irrefl 0)
  | case4 b limit script _ _ more ih =>
    obtain ⟨hfault, htaken, hscript⟩ := ih fun a ha => h a (List.mem_cons_of_mem _ ha)
    refine ⟨hfault, ?_, hscript⟩
    simp only [more, htaken, List.take_append_drop]
  | case5 b fault script _ _ ih => exact ih fun a ha => h a (List.mem_cons_of_mem _ ha)
  | case6 b fault script _ hkind => exact absurd (h (.fail fault) List.mem_cons_self) hkind

/-- A frame that is sent to a willing sink by `Sink.send` leaves it whole and without error, and the
sink stays willing. -/
theorem Sink.Willing.send {s : Sink} (h : s.Willing) (context : String) (frame : Bytes) :
    (s.send context frame).error = none ∧ (s.send context frame).emitted = some frame ∧
      (s.send context frame).sink.Willing := by
  obtain ⟨hfault, htaken, hscript⟩ := offer_of_willing frame s.script h.script
  have hwrite : s.write frame =
      (none, { s with script := (offer frame s.script).script, pending := frame }) := by
    simp [Sink.write, hfault, htaken, h.pending]
  rw [Sink.send, hwrite]
  refine ⟨?_, rfl, hscript, Sink.firstFlushFault_advance h.flush, rfl, ?_⟩
  · have houtcome : s.flushOutcome = none := Sink.flushOutcome_of_firstFlushFault h.flush
    exact congrArg (Option.map _) houtcome
  · simp [Sink.advance, h.line]

/-! ## Channels -/

namespace Channels

/-- A delivery by `Channels.deliver` of two rows of notices is the delivery of the first and then of
the second. -/
theorem deliver_append (l r : List Notice) (cs : Channels) :
    deliver (l ++ r) cs =
      ⟨(deliver l cs).delivered + (deliver r (deliver l cs).channels).delivered,
        (deliver l cs).errors ++ (deliver r (deliver l cs).channels).errors,
        (deliver l cs).emissions ++ (deliver r (deliver l cs).channels).emissions,
        (deliver r (deliver l cs).channels).channels⟩ := by
  induction l generalizing cs with
  | nil => simp [deliver]
  | cons n rest ih =>
    rw [List.cons_append, deliver, deliver]
    split
    case isTrue => exact ih cs
    case isFalse => simp [ih, Nat.add_assoc]

/-- A willing channel is not closed (`Channels.isClosed`). -/
theorem Willing.isClosed {cs : Channels} {id : ChannelId} (h : cs.Willing id) :
    cs.isClosed id = false := by
  obtain ⟨sink, hsink, -⟩ := h
  rw [Channels.isClosed, hsink]
  rfl

/-- What is sent on a willing channel by `Channels.send` leaves it as the notice's frame, and every
channel that was willing stays so. -/
theorem send_of_willing {cs : Channels} {n : Notice} {out : Emission}
    (h : cs.Willing n.channel) (hout : n.emission? = .ok out) :
    (cs.send n).emissions = [out] ∧ ∀ id, cs.Willing id → (cs.send n).channels.Willing id := by
  obtain ⟨sink, hsink, hwilling⟩ := h
  obtain ⟨frame, hframe, rfl⟩ := Notice.emission?_eq_ok hout
  obtain ⟨herror, hemitted, hafter⟩ := hwilling.send "writing notification" frame
  rw [send, hframe]
  simp only [hsink]
  refine ⟨?_, fun id hid => ?_⟩
  · simp [hemitted, emission, Sink.line, hwilling.line]
  · rw [Channels.Willing, sink?_setSink hsink]
    split
    · exact ⟨_, rfl, hafter⟩
    · exact hid

/-- What is delivered on willing channels by `Channels.deliver` leaves them frame by frame and in
order, and they stay willing; by induction on the notices with `send_of_willing`. -/
theorem deliver_of_willing {notices : List Notice} {out : List Emission} {cs : Channels}
    (h : ∀ n ∈ notices, cs.Willing n.channel)
    (hout : notices.map Notice.emission? = out.map .ok) :
    (deliver notices cs).emissions = out ∧
      ∀ id, cs.Willing id → (deliver notices cs).channels.Willing id := by
  induction notices generalizing out cs with
  | nil =>
    obtain rfl := List.map_eq_nil_iff.1 hout.symm
    exact ⟨rfl, fun _ hid => hid⟩
  | cons n rest ih =>
    obtain ⟨first, more, rfl, hfirst, hmore⟩ := List.map_eq_cons_iff.1 hout.symm
    have hn := h n List.mem_cons_self
    obtain ⟨hsent, hkeep⟩ := send_of_willing hn hfirst.symm
    obtain ⟨hdelivered, hkeep'⟩ :=
      ih (fun m hm => hkeep _ (h m (List.mem_cons_of_mem _ hm))) hmore.symm
    rw [deliver, hn.isClosed]
    simp only [Bool.false_eq_true, if_false]
    exact ⟨by rw [hsent, hdelivered]; rfl, fun id hid => hkeep' id (hkeep id hid)⟩

end Channels

/-! ## The store -/

namespace Engine

/-- Bytes that leave by `Engine.emitAll` in two parts leave as in one. -/
theorem emitAll_append (e : Engine) (first more : List Emission) :
    e.emitAll (first ++ more) = (e.emitAll first).emitAll more :=
  List.foldl_append

/-- What leaves by `Engine.emitAll` on the lines of channels, which are no files, is appended to
`sent` in order. -/
theorem sent_emitAll {e : Engine} {out : List Emission}
    (h : ∀ o ∈ out, ∃ id, o.line = .notification id) :
    (e.emitAll out).sent = e.sent ++ out := by
  unfold emitAll
  induction out generalizing e with
  | nil => exact (List.append_nil _).symm
  | cons o rest ih =>
    obtain ⟨id, hid⟩ := h o List.mem_cons_self
    have hemit : (e.emit o).sent = e.sent ++ [o] := by
      unfold emit
      simp [hid]
    rw [List.foldl_cons, ih fun p hp => h p (List.mem_cons_of_mem _ hp), hemit]
    simp

/-- What notices are by `Notice.emission?` is on the lines of channels. -/
theorem line_of_emission? {notices : List Notice} {out : List Emission}
    (hout : notices.map Notice.emission? = out.map .ok) :
    ∀ o ∈ out, ∃ id, o.line = .notification id := by
  intro o ho
  have hmem : Except.ok o ∈ notices.map Notice.emission? := hout ▸ List.mem_map_of_mem ho
  obtain ⟨n, -, hn⟩ := List.mem_map.1 hmem
  obtain ⟨frame, -, rfl⟩ := Notice.emission?_eq_ok hn
  exact ⟨n.channel, rfl⟩

/-- What the store delivers goes through the channels notice by notice (`Channels.deliver`), and
leaves the store as the channels let it leave. -/
theorem deliver_eq (e : Engine) (notices : List Notice) :
    (e.deliver notices).channels = (Channels.deliver notices e.channels).channels ∧
      (e.deliver notices).sent =
        (e.emitAll (Channels.deliver notices e.channels).emissions).sent := by
  suffices h : ∀ (groups : List (List Notice)) (e : Engine),
      let after := groups.foldl (fun e told => (e.tell told).part (told.map Notice.channel)) e
      after.channels = (Channels.deliver groups.flatten e.channels).channels ∧
        after.sent = (e.emitAll (Channels.deliver groups.flatten e.channels).emissions).sent by
    have hgroups := h (notices.splitBy fun m n => m.notification.key == n.notification.key) e
    rwa [List.flatten_splitBy] at hgroups
  intro groups
  induction groups with
  | nil => exact fun e => ⟨rfl, rfl⟩
  | cons told rest ih =>
    intro e
    let now := (e.tell told).part (told.map Notice.channel)
    let told' := Channels.deliver told e.channels
    have hchannels : now.channels = told'.channels := by
      rw [channels_part, tell, channels_emitAll]
    -- what leaves goes where the files and the lines are, whatever the channels have become
    have hfiles : { e with channels := told'.channels }.files = e.files := rfl
    have hlines : { e with channels := told'.channels }.sent = e.sent := rfl
    have hnow : now.files = (e.emitAll told'.emissions).files ∧
        now.sent = (e.emitAll told'.emissions).sent := emitAll_congr hfiles hlines _
    obtain ⟨hafter, hsent⟩ := ih now
    rw [hchannels] at hafter hsent
    rw [List.foldl_cons, List.flatten_cons, Channels.deliver_append]
    refine ⟨hafter, hsent.trans ?_⟩
    rw [emitAll_append]
    exact (emitAll_congr hnow.1 hnow.2 _).2

/-- What the store delivers on willing channels leaves it frame by frame and in order, and the
channels stay willing (`Channels.deliver_of_willing`). -/
theorem sent_deliver {e : Engine} {notices : List Notice} {out : List Emission}
    (h : ∀ n ∈ notices, e.channels.Willing n.channel)
    (hout : notices.map Notice.emission? = out.map .ok) :
    (e.deliver notices).sent = e.sent ++ out ∧
      ∀ id, e.channels.Willing id → (e.deliver notices).channels.Willing id := by
  obtain ⟨hchannels, hsent⟩ := e.deliver_eq notices
  obtain ⟨hemissions, hkeep⟩ := Channels.deliver_of_willing h hout
  rw [hsent, hemissions, hchannels]
  exact ⟨sent_emitAll (line_of_emission? hout), hkeep⟩

end Engine

end KeyWatch
