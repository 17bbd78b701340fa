import KeyWatch.Pipe.Sink
import KeyWatch.Table.Effect

/-!
# Notification channels

A channel is the sink on which a client is told of changes, shared by its session and its
subscriptions, until it is closed. Sending on a closed channel fails, and a subscriber whose channel
is closed is passed over. Notices are delivered one after another, and a failure ends none of the
deliveries after it (`Channels.deliver`).
-/

namespace KeyWatch

/-- The notification channels by number, each with its sink, or none once it is closed. A number is
never given again, since `Channels.open` appends. -/
structure Channels where
  sinks : List (Option Sink)
  deriving DecidableEq, Repr

/-- What became of notices (`Channels.deliver`): how many were delivered, the errors of those that
failed, what left on the channels' lines, and the channels after it. -/
structure Delivery where
  delivered : Nat
  errors : List Error
  emissions : List Emission
  channels : Channels
  deriving DecidableEq, Repr

namespace Channels

/-- No channels, so every number is that of a closed one. -/
def empty : Channels := ⟨[]⟩

/-- The sink of a channel, or `none` if the channel is closed or was never opened. -/
def sink? (cs : Channels) (id : ChannelId) : Option Sink := (cs.sinks[id]?).join

/-- Whether a channel is closed, that is, whether it has no `sink?`. Operation: `is_closed`. -/
def isClosed (cs : Channels) (id : ChannelId) : Bool := (cs.sink? id).isNone

/-- The channels with a new one, and its number, which is the next. Operation: `new` of a
channel. -/
def «open» (cs : Channels) (sink : Sink) : ChannelId × Channels :=
  (cs.sinks.length, ⟨cs.sinks ++ [some sink]⟩)

/-- The channels with the sink of one replaced; a number that is not given stays so. -/
def setSink (cs : Channels) (id : ChannelId) (sink : Option Sink) : Channels :=
  ⟨cs.sinks.set id sink⟩

/-- What bytes that leave a channel's sink are: an `Emission` on the channel's line, or into the
file of the sink (`Sink.line`). -/
def emission (id : ChannelId) (sink : Sink) (bytes : Bytes) : Emission :=
  ⟨sink.line (.notification id), bytes⟩

/-- Sends a notification on a channel. What cannot be encoded is refused before the channel is
looked at, and a closed channel is a fault. A failed write leaves the channel open. Operation:
`send`. -/
def send (cs : Channels) (n : Notice) : Delivery :=
  match n.notification.encode with
  | .error fault => ⟨0, [.protocol fault], [], cs⟩
  | .ok frame =>
    match cs.sink? n.channel with
    | none => ⟨0, [.transport .channelClosed], [], cs⟩
    | some sink =>
      let sending := sink.send "writing notification" frame
      ⟨if sending.error.isNone then 1 else 0, sending.error.toList,
        sending.emitted.toList.map (emission n.channel sink),
        cs.setSink n.channel (some sending.sink)⟩

/-- Delivers notices one after another (`Channels.send`), passing over the closed channels. A
failure ends none of the deliveries behind it. Operation: `notify`. -/
def deliver : List Notice → Channels → Delivery
  | [], cs => ⟨0, [], [], cs⟩
  | n :: rest, cs =>
    if cs.isClosed n.channel then deliver rest cs
    else
      let first := cs.send n
      let more := deliver rest first.channels
      ⟨first.delivered + more.delivered, first.errors ++ more.errors,
        first.emissions ++ more.emissions, more.channels⟩

/-- Closes a channel; the bytes it holds back leave it (`Sink.remainder`). To close it again changes
nothing. Operation: `close`. -/
def close (cs : Channels) (id : ChannelId) : List Emission × Channels :=
  match cs.sink? id with
  | none => ([], cs)
  | some sink => (sink.remainder.toList.map (emission id sink), cs.setSink id none)

/-- How a channel is shown, which tells of it only whether it is closed. Operation: `fmt`. -/
def shown (cs : Channels) (id : ChannelId) : String :=
  "NotificationChannel \x7b closed: " ++ (if cs.isClosed id then "true" else "false") ++ " \x7d"

/-! ## Which channels are open -/

/-- Once the sink of an open channel was replaced (`setSink`), that channel has the new one, and
every other has its own. -/
theorem sink?_setSink {cs : Channels} {id : ChannelId} {sink : Sink} (h : cs.sink? id = some sink)
    (new : Option Sink) (j : ChannelId) :
    (cs.setSink id new).sink? j = if j = id then new else cs.sink? j := by
  have hlt : id < cs.sinks.length := by
    refine Nat.lt_of_not_le fun hle => ?_
    rw [sink?, List.getElem?_eq_none hle] at h
    cases h
  simp only [sink?, setSink, List.getElem?_set]
  by_cases hj : id = j
  · subst hj
    simp [hlt]
  · simp [hj, Ne.symm hj]

/-- The channel that `open` gives has the sink it was given, and every other has its own. -/
theorem sink?_open (cs : Channels) (sink : Sink) (j : ChannelId) :
    (cs.open sink).2.sink? j = if j = cs.sinks.length then some sink else cs.sink? j := by
  simp only [sink?, «open», List.getElem?_append]
  split
  case isTrue hlt => rw [if_neg (Nat.ne_of_lt hlt)]
  case isFalse hle =>
    by_cases hj : j = cs.sinks.length
    · simp [hj]
    · have hgt : cs.sinks.length < j := Nat.lt_of_le_of_ne (Nat.not_lt.1 hle) (Ne.symm hj)
      rw [if_neg hj, List.getElem?_eq_none (Nat.le_of_lt hgt), List.getElem?_eq_none]
      rw [List.length_singleton]
      omega

/-- An open channel is not the one that `open` gives next, so a new channel is nobody's yet. -/
theorem ne_length_of_isClosed {cs : Channels} {id : ChannelId} (h : cs.isClosed id = false) :
    id ≠ cs.sinks.length := by
  rintro rfl
  simp [isClosed, sink?] at h

/-- To `send` opens and closes no channel, whether it succeeds or not. -/
@[simp] theorem isClosed_send (cs : Channels) (n : Notice) (id : ChannelId) :
    (cs.send n).channels.isClosed id = cs.isClosed id := by
  unfold send
  split
  · rfl
  · split
    case h_1 => rfl
    case h_2 sink hsink =>
      rw [isClosed, sink?_setSink hsink, isClosed]
      split
      case isTrue hid => rw [hid, hsink]; rfl
      case isFalse => rfl

/-- To `deliver` notices opens and closes no channel, whatever becomes of them. -/
@[simp] theorem isClosed_deliver (notices : List Notice) (cs : Channels) (id : ChannelId) :
    (deliver notices cs).channels.isClosed id = cs.isClosed id := by
  induction notices generalizing cs with
  | nil => rfl
  | cons n rest ih =>
    rw [deliver]
    split
    · exact ih cs
    · exact (ih _).trans (isClosed_send cs n id)

end Channels

end KeyWatch
