import KeyWatch.Proofs.Notice.BrokenOff
import KeyWatch.Proofs.Notice.Delivery

/-!
# What one channel hears

A delivery goes through many channels, of which each may take, refuse or break off what it is sent.
To one of them the others do not matter (`Channels.send_congr`). Take away some channels of two
stores, and the notices on them: if the others were alike, they stay alike, and take and emit the
same (`Channels.AlikeBut.deliver`, `Channels.AlikeBut.filter_deliver`). And a willing channel emits
the frames of its notices one by one, whatever the channels are on which the others listen
(`Channels.filter_deliver`).
-/

namespace KeyWatch

/-- Whether bytes left on the line of a channel. -/
def Emission.isOn (id : ChannelId) (o : Emission) : Bool := o.line == .notification id

/-- What has left the store on the line of a channel (`Emission.isOn`), in order. -/
def Engine.sentOn (e : Engine) (id : ChannelId) : List Emission := e.sent.filter (Emission.isOn id)

namespace Channels

variable {cs ds : Channels} {n : Notice} {id : ChannelId}

/-- A notice that is sent by `Channels.send` leaves the channels alone that it is not sent on. -/
theorem sink?_send_of_ne (h : n.channel ≠ id) : (cs.send n).channels.sink? id = cs.sink? id := by
  unfold send
  split
  case h_1 => rfl
  case h_2 =>
    split
    case h_1 => rfl
    case h_2 sink hsink => rw [sink?_setSink hsink, if_neg h.symm]

/-- What becomes of a `send` on a channel, its errors, its bytes, what is taken and the sink after
it, does not depend on the other channels. -/
theorem send_congr (h : cs.sink? n.channel = ds.sink? n.channel) :
    (cs.send n).errors = (ds.send n).errors ∧ (cs.send n).emissions = (ds.send n).emissions ∧
      cs.taken n = ds.taken n ∧
      (cs.send n).channels.sink? n.channel = (ds.send n).channels.sink? n.channel := by
  unfold taken send
  rw [h]
  cases n.notification.encode with
  | error fault => exact ⟨rfl, rfl, rfl, h⟩
  | ok frame =>
    cases hd : ds.sink? n.channel with
    | none => exact ⟨rfl, rfl, rfl, h⟩
    | some sink =>
      refine ⟨rfl, rfl, rfl, ?_⟩
      rw [sink?_setSink (h.trans hd), sink?_setSink hd, if_pos rfl, if_pos rfl]

/-- What leaves a channel by `emission` is not on the line of another. -/
theorem filter_emission_of_ne {other : ChannelId} (h : other ≠ id) (sink : Sink)
    (out : List Bytes) : (out.map (emission other sink)).filter (Emission.isOn id) = [] := by
  rw [List.filter_eq_nil_iff]
  intro o ho
  obtain ⟨bytes, -, rfl⟩ := List.mem_map.1 ho
  unfold Emission.isOn emission Sink.line
  cases sink.cursor with
  | none => simpa using h
  | some cursor => nofun

/-- A notice that is sent on another channel by `send` leaves nothing on a channel's line. -/
theorem filter_send_of_ne (h : n.channel ≠ id) :
    (cs.send n).emissions.filter (Emission.isOn id) = [] := by
  unfold send
  split
  case h_1 => rfl
  case h_2 =>
    split
    case h_1 => rfl
    case h_2 sink _ => exact filter_emission_of_ne h sink _

/-- On a willing channel leave the frames of its notices one by one, whatever the other channels do
with theirs; by induction on the notices, of which `send_congr` passes those of others by. -/
theorem filter_deliver {notices : List Notice} {out : List Emission} (h : cs.Willing id)
    (hout : (notices.filter (·.channel == id)).map Notice.emission? = out.map .ok) :
    (deliver notices cs).emissions.filter (Emission.isOn id) = out ∧
      (deliver notices cs).channels.Willing id := by
  induction notices generalizing out cs with
  | nil =>
    obtain rfl := List.map_eq_nil_iff.1 hout.symm
    exact ⟨rfl, h⟩
  | cons n rest ih =>
    rw [List.filter_cons] at hout
    rcases Decidable.eq_or_ne n.channel id with hid | hid
    · rw [if_pos (beq_iff_eq.2 hid)] at hout
      obtain ⟨first, more, rfl, hfirst, hmore⟩ := List.map_eq_cons_iff.1 hout.symm
      obtain ⟨hsent, hkeep⟩ := send_of_willing (hid ▸ h) hfirst.symm
      obtain ⟨hdelivered, hafter⟩ := ih (hkeep id h) hmore.symm
      obtain ⟨frame, -, rfl⟩ := Notice.emission?_eq_ok hfirst.symm
      have hline : Emission.isOn id ⟨.notification n.channel, frame⟩ = true := by
        rw [Emission.isOn, hid]
        exact beq_self_eq_true _
      have hopen : cs.isClosed n.channel = false := hid ▸ h.isClosed
      rw [deliver, hopen]
      simp only [Bool.false_eq_true, if_false]
      rw [List.filter_append, hsent, hdelivered, List.filter_cons, if_pos hline]
      exact ⟨rfl, hafter⟩
    · have hskip : ¬(n.channel == id) = true := fun he => hid (beq_iff_eq.1 he)
      rw [if_neg hskip] at hout
      rw [deliver]
      split
      case isTrue => exact ih h hout
      case isFalse =>
        have hwilling : (cs.send n).channels.Willing id := by
          rw [Channels.Willing, sink?_send_of_ne hid]
          exact h
        obtain ⟨hdelivered, hafter⟩ := ih hwilling hout
        simp only [List.filter_append, filter_send_of_ne hid, hdelivered, List.nil_append]
        exact ⟨trivial, hafter⟩

/-! ## Channels that are alike -/

/-- The bytes that a channel takes (`Channels.taken`) while notices are delivered by `deliver`. -/
def takenOn (id : ChannelId) : List Notice → Channels → Bytes
  | [], _ => []
  | n :: rest, cs =>
    if cs.isClosed n.channel then takenOn id rest cs
    else (if n.channel = id then cs.taken n else []) ++ takenOn id rest (cs.send n).channels

/-- A channel that is closed by `close` leaves nothing on another channel's line. -/
theorem filter_close_of_ne {other : ChannelId} (h : other ≠ id) :
    (cs.close other).1.filter (Emission.isOn id) = [] := by
  unfold close
  split
  case h_1 => rfl
  case h_2 sink _ => exact filter_emission_of_ne h sink _

/-- As many channels, and all alike but some: their sinks are the same outside the ones named. -/
structure AlikeBut (own : List ChannelId) (cs ds : Channels) : Prop where
  length : cs.sinks.length = ds.sinks.length
  sink? : ∀ id, id ∉ own → cs.sink? id = ds.sink? id

/-- A `send` neither adds a channel nor takes one away. -/
theorem length_send (cs : Channels) (n : Notice) :
    (cs.send n).channels.sinks.length = cs.sinks.length := by
  unfold send
  split
  case h_1 => rfl
  case h_2 =>
    split
    case h_1 => rfl
    case h_2 => exact List.length_set

/-- A `close` empties the place of a channel and takes none away. -/
theorem length_close (cs : Channels) (id : ChannelId) :
    (cs.close id).2.sinks.length = cs.sinks.length := by
  unfold close
  split
  case h_1 => rfl
  case h_2 => exact List.length_set

namespace AlikeBut

variable {own : List ChannelId}

/-- Channels are alike to themselves, whichever are left out (`AlikeBut`). -/
theorem refl (own : List ChannelId) (cs : Channels) : AlikeBut own cs cs := ⟨rfl, fun _ _ => rfl⟩

/-- A channel that is not left out is closed in both or in neither (`Channels.isClosed`). -/
theorem isClosed (h : AlikeBut own cs ds) (hid : id ∉ own) : cs.isClosed id = ds.isClosed id := by
  rw [Channels.isClosed, Channels.isClosed, h.sink? id hid]

/-- What is sent by `Channels.send` on a channel that is alike is taken and emitted alike, and the
channels stay alike. -/
theorem send (h : AlikeBut own cs ds) (hn : n.channel ∉ own) :
    (cs.send n).emissions = (ds.send n).emissions ∧ cs.taken n = ds.taken n ∧
      AlikeBut own (cs.send n).channels (ds.send n).channels := by
  obtain ⟨-, hemissions, htaken, hsink⟩ := send_congr (h.sink? n.channel hn)
  refine ⟨hemissions, htaken, ?_, fun id hid => ?_⟩
  · rw [length_send, length_send, h.length]
  · rcases Decidable.eq_or_ne n.channel id with rfl | hne
    · exact hsink
    · rw [sink?_send_of_ne hne, sink?_send_of_ne hne, h.sink? id hid]

/-- What is sent on one of the channels left out is not seen on the others, so they stay alike
(`AlikeBut`). -/
theorem send_own (h : AlikeBut own cs ds) (hn : n.channel ∈ own) :
    AlikeBut own (cs.send n).channels ds := by
  refine ⟨(length_send cs n).trans h.length, fun id hid => ?_⟩
  have hne : n.channel ≠ id := fun he => hid (he ▸ hn)
  rw [sink?_send_of_ne hne, h.sink? id hid]

/-- A delivery by `Channels.deliver` keeps channels alike, if the notices on those left out are sent
to one side and not to the other. -/
theorem deliver (h : AlikeBut own cs ds) (notices : List Notice) :
    AlikeBut own (Channels.deliver notices cs).channels
      (Channels.deliver (notices.filter (·.channel ∉ own)) ds).channels := by
  induction notices generalizing cs ds with
  | nil => exact h
  | cons n rest ih =>
    rw [Channels.deliver]
    rcases Decidable.em (n.channel ∈ own) with hn | hn
    · rw [List.filter_cons_of_neg (by simpa using hn)]
      split
      case isTrue => exact ih h
      case isFalse => exact ih (h.send_own hn)
    · rw [List.filter_cons_of_pos (by simpa using hn), Channels.deliver, ← h.isClosed hn]
      split
      case isTrue => exact ih h
      case isFalse => exact ih (h.send hn).2.2

/-- A channel that is alike takes and emits alike in a delivery (`Channels.deliver`), whatever is
sent on those left out. -/
theorem filter_deliver (h : AlikeBut own cs ds) (hid : id ∉ own) (notices : List Notice) :
    (Channels.deliver notices cs).emissions.filter (Emission.isOn id) =
        (Channels.deliver (notices.filter (·.channel ∉ own)) ds).emissions.filter
          (Emission.isOn id) ∧
      takenOn id notices cs = takenOn id (notices.filter (·.channel ∉ own)) ds := by
  induction notices generalizing cs ds with
  | nil => exact ⟨rfl, rfl⟩
  | cons n rest ih =>
    rw [Channels.deliver, takenOn]
    rcases Decidable.em (n.channel ∈ own) with hn | hn
    · rw [List.filter_cons_of_neg (by simpa using hn)]
      split
      case isTrue => exact ih h
      case isFalse =>
        have hne : n.channel ≠ id := fun he => hid (he ▸ hn)
        obtain ⟨hemissions, htaken⟩ := ih (h.send_own hn)
        rw [List.filter_append, filter_send_of_ne hne, if_neg hne]
        exact ⟨hemissions, htaken⟩
    · rw [List.filter_cons_of_pos (by simpa using hn), Channels.deliver, takenOn, ← h.isClosed hn]
      split
      case isTrue => exact ih h
      case isFalse =>
        obtain ⟨hfirst, htakenFirst, hafter⟩ := h.send hn
        obtain ⟨hemissions, htaken⟩ := ih hafter
        rw [List.filter_append, List.filter_append, hfirst, hemissions, htakenFirst, htaken]
        exact ⟨rfl, rfl⟩

/-- A channel that is opened by `Channels.open` has the same number beside channels that are alike,
and they stay alike. -/
theorem «open» (h : AlikeBut own cs ds) (sink : Sink) :
    (cs.open sink).1 = (ds.open sink).1 ∧ AlikeBut own (cs.open sink).2 (ds.open sink).2 := by
  refine ⟨h.length, ?_, fun id hid => ?_⟩
  · simp [Channels.open, h.length]
  · rw [sink?_open, sink?_open, h.length, h.sink? id hid]

/-- Whatever channel is closed by `Channels.close`, the others stay alike, and it leaves on them the
same. -/
theorem close (h : AlikeBut own cs ds) (other : ChannelId) :
    AlikeBut own (cs.close other).2 (ds.close other).2 ∧
      ∀ id, id ∉ own → (cs.close other).1.filter (Emission.isOn id) =
        (ds.close other).1.filter (Emission.isOn id) := by
  refine ⟨⟨?_, fun id hid => ?_⟩, fun id hid => ?_⟩
  · rw [length_close, length_close, h.length]
  · rw [sink?_close, sink?_close, h.sink? id hid]
  · rcases Decidable.eq_or_ne other id with rfl | hne
    · unfold Channels.close
      rw [h.sink? other hid]
      cases ds.sink? other <;> rfl
    · rw [filter_close_of_ne hne, filter_close_of_ne hne]

end AlikeBut

end Channels

namespace Engine

variable {e : Engine} {id : ChannelId}

/-- What leaves by `emitAll` is on a channel's line as far as it is on it (`Emission.isOn`). -/
theorem sentOn_emitAll (e : Engine) (out : List Emission) :
    (e.emitAll out).sentOn id = e.sentOn id ++ out.filter (Emission.isOn id) :=
  filter_sent_emitAll (fun _ _ => rfl) e out

/-- What the store delivers is on a channel's line as the channel emits it in `Channels.deliver`. -/
theorem sentOn_deliver_eq (e : Engine) (notices : List Notice) (id : ChannelId) :
    (e.deliver notices).sentOn id =
      e.sentOn id ++ (Channels.deliver notices e.channels).emissions.filter (Emission.isOn id) := by
  rw [sentOn, (e.deliver_eq notices).2]
  exact sentOn_emitAll e _

/-- What the store delivers leaves on a willing channel frame by frame and in order, and the channel
stays willing (`Channels.filter_deliver`). -/
theorem sentOn_deliver {notices : List Notice} {out : List Emission} (h : e.channels.Willing id)
    (hout : (notices.filter (·.channel == id)).map Notice.emission? = out.map .ok) :
    (e.deliver notices).sentOn id = e.sentOn id ++ out ∧
      (e.deliver notices).channels.Willing id := by
  obtain ⟨hemissions, hafter⟩ := Channels.filter_deliver h hout
  rw [sentOn_deliver_eq, hemissions, (e.deliver_eq notices).1]
  exact ⟨rfl, hafter⟩

end Engine

end KeyWatch
