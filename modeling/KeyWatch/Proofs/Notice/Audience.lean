import Mathlib.Data.List.Nodup
import KeyWatch.Proofs.Notice.BrokenOff
import KeyWatch.Proofs.Notice.OneChannel
import KeyWatch.Table.Subscriber

/-!
# The audience of a key

Subscribers come and go, their channels are opened, closed and used by others, and several of them
may listen on one channel (`Audience`). However that goes, no client stands in the list twice
(`Audience.nodup_runAll`), one that comes again takes its old place with its new channel, and one
that leaves lets the others stand as they stood (`SubscriberList.exists_place`).

To tell the subscribers a notification is to send it once for each of them whose channel is open, in
their order and whatever becomes of the sends before (`Channels.deliver_eq`). For no send opens or
closes a channel, so who is told is settled before the first send. What a channel takes of these
sends it takes as if there were no other channels: it is sent the notification as often as there are
subscribers that listen on it (`Channels.sent_sendEach`).
-/

namespace KeyWatch

/-! ## Places in a list -/

namespace SubscriberList

variable {l : SubscriberList} {client : String}

/-- A client of a list in which none stands twice has one place in it, and nobody before or behind
that place has its name. -/
theorem exists_place (h : l.clients.Nodup) (hmem : client ∈ l.clients) :
    ∃ before channel after, l.subscribers = before ++ ⟨client, channel⟩ :: after ∧
      (∀ other ∈ before, other.client ≠ client) ∧ ∀ other ∈ after, other.client ≠ client := by
  obtain ⟨⟨_, channel⟩, hs, rfl⟩ := List.mem_map.1 hmem
  obtain ⟨before, after, hcut⟩ := List.append_of_mem hs
  rw [clients, hcut, List.map_append, List.map_cons, List.nodup_middle, ← List.map_append] at h
  have hothers := (List.nodup_cons.1 h).1
  refine ⟨before, channel, after, hcut, fun other hother he => ?_, fun other hother he => ?_⟩
  · exact hothers (he ▸ List.mem_map_of_mem (List.mem_append_left after hother))
  · exact hothers (he ▸ List.mem_map_of_mem (List.mem_append_right before hother))

/-- A client that comes again by `add` keeps its place and changes its channel; a new one comes
last. -/
theorem subscribers_add (h : l.clients.Nodup) (s : Subscriber) :
    (∃ before old after, l.subscribers = before ++ ⟨s.client, old⟩ :: after ∧
        (l.add s).subscribers = before ++ s :: after) ∨
      s.client ∉ l.clients ∧ (l.add s).subscribers = l.subscribers ++ [s] := by
  unfold add
  rcases Decidable.em (s.client ∈ l.clients) with hmem | hmem
  · obtain ⟨before, old, after, hcut, hbefore, hafter⟩ := exists_place h hmem
    have hkeep : ∀ others : List Subscriber, (∀ other ∈ others, other.client ≠ s.client) →
        others.map (fun old => if old.client = s.client then s else old) = others := by
      intro others hothers
      refine (List.map_congr_left fun other hother => ?_).trans (List.map_id' others)
      exact if_neg (hothers other hother)
    rw [if_pos (contains_iff.2 hmem)]
    refine .inl ⟨before, old, after, hcut, ?_⟩
    simp only [hcut, List.map_append, List.map_cons, if_pos, hkeep before hbefore,
      hkeep after hafter]
  · rw [if_neg fun hc => hmem (contains_iff.1 hc)]
    exact .inr ⟨hmem, rfl⟩

/-- The others stay in their order when a client is dropped by `remove`; one that is not there
changes nothing. -/
theorem subscribers_remove (h : l.clients.Nodup) (client : String) :
    (∃ before channel after, l.subscribers = before ++ ⟨client, channel⟩ :: after ∧
        (l.remove client).subscribers = before ++ after) ∨
      client ∉ l.clients ∧ l.remove client = l := by
  rcases Decidable.em (client ∈ l.clients) with hmem | hmem
  · obtain ⟨before, channel, after, hcut, hbefore, hafter⟩ := exists_place h hmem
    have hkeep : ∀ others : List Subscriber, (∀ other ∈ others, other.client ≠ client) →
        others.filter (·.client != client) = others := by
      intro others hothers
      exact List.filter_eq_self.2 fun other hother => bne_iff_ne.2 (hothers other hother)
    refine .inl ⟨before, channel, after, hcut, ?_⟩
    rw [remove, hcut, List.filter_append, List.filter_cons_of_neg (by simp), hkeep before hbefore,
      hkeep after hafter]
  · exact .inr ⟨hmem, remove_eq_self hmem⟩

end SubscriberList

/-! ## Rows of sends -/

/-- A notice that was sent, and the channels that it met when it was (`Channels.sendEach`). -/
structure Attempt where
  notice : Notice
  met : Channels

namespace Attempt

/-- What became of a notice that was sent, by `Channels.send` on the channels that it met. -/
def outcome (a : Attempt) : Delivery := a.met.send a.notice

/-- Whether a send went well: its `outcome` has no errors. -/
def isOk (a : Attempt) : Bool := a.outcome.errors.isEmpty

/-- What a notice that was sent is to its channel, with the bytes that it took (`Sent`). -/
def sent (a : Attempt) : Sent := ⟨a.notice.notification, a.met.taken a.notice, a.isOk⟩

/-- A send counts as delivered if it goes well (`isOk`), and leaves one error if it does not. -/
theorem counts (a : Attempt) :
    a.outcome.delivered = (if a.isOk then 1 else 0) ∧
      a.outcome.errors.length = if a.isOk then 0 else 1 := by
  unfold isOk outcome Channels.send
  split
  case h_1 => exact ⟨rfl, rfl⟩
  case h_2 frame _ =>
    split
    case h_1 => exact ⟨rfl, rfl⟩
    case h_2 sink _ =>
      rcases Option.eq_none_or_eq_some (sink.send "writing notification" frame).error with
        hnone | ⟨fault, hfault⟩
      · simp [hnone]
      · simp [hfault]

/-- Of the sends of a row each goes well (`isOk`) or leaves one error. -/
theorem countP_isOk_add (row : List Attempt) :
    row.countP isOk + (row.flatMap (·.outcome.errors)).length = row.length := by
  induction row with
  | nil => rfl
  | cons a rest ih =>
    rw [List.countP_cons, List.flatMap_cons, List.length_append, a.counts.2, List.length_cons, ← ih]
    split <;> omega

end Attempt

namespace Channels

variable {cs ds : Channels} {id : ChannelId}

/-- Sends notices one after another by `send`, each on the channels that the one before left,
whatever became of it. -/
def sendEach : List Notice → Channels → List Attempt
  | [], _ => []
  | n :: rest, cs => ⟨n, cs⟩ :: sendEach rest (cs.send n).channels

/-- The notices of the row that `sendEach` makes are those that were sent, in order. -/
theorem notices_sendEach (notices : List Notice) (cs : Channels) :
    (cs.sendEach notices).map Attempt.notice = notices := by
  induction notices generalizing cs with
  | nil => rfl
  | cons n rest ih => exact congrArg (n :: ·) (ih _)

/-- A delivery by `deliver` is a row of sends, one for each notice whose channel is open at the
beginning. -/
theorem deliver_eq (notices : List Notice) (cs : Channels) :
    let row := cs.sendEach (notices.filter fun n => !cs.isClosed n.channel)
    deliver notices cs =
      ⟨row.countP Attempt.isOk, row.flatMap (·.outcome.errors), row.flatMap (·.outcome.emissions),
        (notices.filter fun n => !cs.isClosed n.channel).foldl (fun cs n => (cs.send n).channels)
          cs⟩ := by
  induction notices generalizing cs with
  | nil => rfl
  | cons n rest ih =>
    rw [deliver, List.filter_cons]
    cases hclosed : cs.isClosed n.channel with
    | true => exact ih cs
    | false =>
      -- the send opens and closes nothing, so those after it are told who would be told before it
      have hsame : (rest.filter fun m => !(cs.send n).channels.isClosed m.channel) =
          rest.filter fun m => !cs.isClosed m.channel :=
        List.filter_congr fun m _ => by rw [isClosed_send]
      have hfirst : (cs.send n).delivered = if (Attempt.mk n cs).isOk then 1 else 0 :=
        (Attempt.mk n cs).counts.1
      have hrest := ih (cs.send n).channels
      rw [hsame] at hrest
      simp only [Bool.false_eq_true, if_false, Bool.not_false, if_true, sendEach, hrest, hfirst,
        List.flatMap_cons, List.foldl_cons, List.countP_cons, Nat.add_comm (List.countP _ _)]
      rfl

/-! ## One channel of a row -/

/-- What becomes of notifications that `sendAll` sends on a channel does not depend on the other
channels. -/
theorem sendAll_congr (h : cs.sink? id = ds.sink? id) (ns : List Notification) :
    cs.sendAll id ns = ds.sendAll id ns := by
  induction ns generalizing cs ds with
  | nil => rfl
  | cons n rest ih =>
    have hsink : cs.sink? (Notice.mk id n).channel = ds.sink? (Notice.mk id n).channel := h
    obtain ⟨herrors, -, htaken, hafter⟩ := send_congr hsink
    rw [sendAll, sendAll, herrors, htaken, ih hafter]

/-- The sends of a row that are on one channel are to it as if there were no others: they are what
`sendAll` makes of their notifications. -/
theorem sent_sendEach (id : ChannelId) (notices : List Notice) (cs : Channels) :
    ((cs.sendEach notices).filter (·.notice.channel == id)).map Attempt.sent =
      cs.sendAll id ((notices.filter (·.channel == id)).map Notice.notification) := by
  induction notices generalizing cs with
  | nil => rfl
  | cons n rest ih =>
    obtain ⟨channel, notification⟩ := n
    rw [sendEach, List.filter_cons, List.filter_cons]
    rcases Decidable.eq_or_ne channel id with rfl | hid
    · simp only [BEq.rfl, if_true, List.map_cons, sendAll, ih]
      rfl
    · have hother : (channel == id) = false := beq_eq_false_iff_ne.2 hid
      simp only [hother, Bool.false_eq_true, if_false, ih]
      -- what is sent on another channel leaves this one's sink as it is
      exact sendAll_congr (sink?_send_of_ne hid) _

end Channels

/-! ## Audiences -/

/-- The subscribers of a key, and the channels on which they and others listen. -/
structure Audience where
  list : SubscriberList
  channels : Channels

namespace Audience

/-- Something that is done to an audience: to its list, by telling it a notification, or to the
channels by others (`Audience.run`). -/
inductive Step where
  | add (s : Subscriber)
  | remove (client : String)
  | drain
  | notify (n : Notification)
  | openChannel (sink : Sink)
  | send (n : Notice)
  | close (id : ChannelId)

/-- The audience after a step, by the operations of `SubscriberList` and of `Channels`. -/
def run (a : Audience) : Step → Audience
  | .add s => { a with list := a.list.add s }
  | .remove client => { a with list := a.list.remove client }
  | .drain => { a with list := .empty }
  | .notify n => { a with channels := (Channels.deliver (a.list.notices n) a.channels).channels }
  | .openChannel sink => { a with channels := (a.channels.open sink).2 }
  | .send n => { a with channels := (a.channels.send n).channels }
  | .close id => { a with channels := (a.channels.close id).2 }

/-- The audience after steps one after another (`Audience.run`). -/
def runAll (steps : List Step) (a : Audience) : Audience := steps.foldl run a

/-- The subscribers of an audience whose channels are open (`Channels.isClosed`), in the order of
the list. -/
def listening (a : Audience) : List Subscriber :=
  a.list.subscribers.filter fun s => !a.channels.isClosed s.channel

/-- The notices that tell a notification to those who are `listening`, one for each. -/
def calls (a : Audience) (n : Notification) : List Notice :=
  a.listening.map fun s => ⟨s.channel, n⟩

/-- A step leaves no client twice in the list if there was none before, whatever it does
(`Audience.run`). -/
theorem nodup_run {a : Audience} (h : a.list.clients.Nodup) (step : Step) :
    (a.run step).list.clients.Nodup := by
  cases step with
  | add s => exact SubscriberList.nodup_clients_add h s
  | remove client => exact SubscriberList.nodup_clients_remove h client
  | drain => exact List.nodup_nil
  | notify | openChannel | send | close => exact h

/-- After any steps no client stands in the list twice; by induction with `nodup_run`. -/
theorem nodup_runAll {a : Audience} (h : a.list.clients.Nodup) (steps : List Step) :
    (runAll steps a).list.clients.Nodup := by
  induction steps generalizing a with
  | nil => exact h
  | cons step rest ih => exact ih (nodup_run h step)

/-- The `calls` that go to one channel are as many as the subscribers that listen on it, if it is
open, and none if it is closed. -/
theorem filter_calls (a : Audience) (n : Notification) (id : ChannelId) :
    ((a.calls n).filter (·.channel == id)).map Notice.notification =
      List.replicate (if a.channels.isClosed id then 0 else a.list.channels.count id) n := by
  refine List.eq_replicate_iff.2 ⟨?_, fun told htold => ?_⟩
  · have hsame : ∀ s : Subscriber, (s.channel == id && !a.channels.isClosed s.channel) =
        (s.channel == id && !a.channels.isClosed id) := by
      intro s
      rcases Decidable.eq_or_ne s.channel id with hs | hs
      · rw [hs]
      · rw [beq_eq_false_iff_ne.2 hs, Bool.false_and, Bool.false_and]
    have hcount : (a.calls n).countP (·.channel == id) =
        a.list.subscribers.countP fun s => s.channel == id && !a.channels.isClosed id := by
      rw [calls, listening, List.countP_map, List.countP_filter]
      exact congrArg (a.list.subscribers.countP ·) (funext hsame)
    rw [List.length_map, ← List.countP_eq_length_filter, hcount, SubscriberList.channels,
      List.count, List.countP_map]
    cases a.channels.isClosed id with
    | true => simp
    | false => simp [Function.comp_def]
  · obtain ⟨notice, hnotice, rfl⟩ := List.mem_map.1 htold
    obtain ⟨s, -, rfl⟩ := List.mem_map.1 (List.mem_filter.1 hnotice).1
    rfl

/-- Of the notices to all subscribers those that are on open channels are the `calls`. -/
theorem filter_notices (a : Audience) (n : Notification) :
    ((a.list.notices n).filter fun m => !a.channels.isClosed m.channel) = a.calls n := by
  rw [SubscriberList.notices, calls, listening, List.filter_map]
  rfl

/-- However an audience came about, it is told a notification by one send for each subscriber whose
channel is open, in the order of the list (`calls`): these sends, one after another and whatever
becomes of those before, give the errors, the bytes that leave and the channels after it, and those
that go well are counted. On each channel they are what as many sends are on it alone (`sendAll`).
The list is left as it is. A client that is added again keeps its place and changes its channel, a
client that is dropped leaves the others in their order, and none ever stands in the list twice. -/
theorem tellsOnce_runAll (steps : List Step) (cs : Channels) :
    let a := runAll steps ⟨.empty, cs⟩
    a.list.clients.Nodup ∧
      (∀ n,
        let row := a.channels.sendEach (a.calls n)
        let told := Channels.deliver (a.list.notices n) a.channels
        a.run (.notify n) = ⟨a.list, told.channels⟩ ∧
          row.map Attempt.notice = a.calls n ∧
          told.delivered = row.countP Attempt.isOk ∧
          told.delivered + told.errors.length = a.listening.length ∧
          told.errors = row.flatMap (·.outcome.errors) ∧
          told.emissions = row.flatMap (·.outcome.emissions) ∧
          told.channels = (a.calls n).foldl (fun cs call => (cs.send call).channels) a.channels ∧
          ∀ id, (row.filter (·.notice.channel == id)).map Attempt.sent =
            a.channels.sendAll id
              (.replicate (if a.channels.isClosed id then 0 else a.list.channels.count id) n)) ∧
      (∀ s : Subscriber,
        (∃ before old after, a.list.subscribers = before ++ ⟨s.client, old⟩ :: after ∧
            (a.list.add s).subscribers = before ++ s :: after) ∨
          s.client ∉ a.list.clients ∧ (a.list.add s).subscribers = a.list.subscribers ++ [s]) ∧
      ∀ client,
        (∃ before channel after, a.list.subscribers = before ++ ⟨client, channel⟩ :: after ∧
            (a.list.remove client).subscribers = before ++ after) ∨
          client ∉ a.list.clients ∧ a.list.remove client = a.list := by
  intro a
  have hempty : (Audience.mk .empty cs).list.clients.Nodup := List.nodup_nil
  have hnodup : a.list.clients.Nodup := nodup_runAll hempty steps
  refine ⟨hnodup, fun n => ?_, SubscriberList.subscribers_add hnodup,
    SubscriberList.subscribers_remove hnodup⟩
  intro row told
  have htold : told = ⟨row.countP Attempt.isOk, row.flatMap (·.outcome.errors),
      row.flatMap (·.outcome.emissions),
      (a.calls n).foldl (fun cs call => (cs.send call).channels) a.channels⟩ := by
    have heq := Channels.deliver_eq (a.list.notices n) a.channels
    rwa [filter_notices] at heq
  have hcalls : row.map Attempt.notice = a.calls n := Channels.notices_sendEach (a.calls n) _
  have hdelivered : told.delivered = row.countP Attempt.isOk := congrArg Delivery.delivered htold
  have herrors : told.errors = row.flatMap (·.outcome.errors) := congrArg Delivery.errors htold
  have hall : told.delivered + told.errors.length = a.listening.length := by
    rw [hdelivered, herrors, Attempt.countP_isOk_add, ← List.length_map Attempt.notice, hcalls,
      calls, List.length_map]
  have hchannel : ∀ id, (row.filter (·.notice.channel == id)).map Attempt.sent =
      a.channels.sendAll id
        (.replicate (if a.channels.isClosed id then 0 else a.list.channels.count id) n) := by
    intro id
    rw [← filter_calls]
    exact Channels.sent_sendEach id (a.calls n) a.channels
  exact ⟨rfl, hcalls, hdelivered, hall, herrors, congrArg Delivery.emissions htold,
    congrArg Delivery.channels htold, hchannel⟩

/-- Two subscribers share a channel whose first write fails, one has a closed channel, and one a
channel that takes frames in pieces: of the three sends only the first fails. -/
example :
    let cs : Channels :=
      ⟨[some { script := [.fail ⟨.other, "full"⟩] }, none, some { script := [.accept 5] }]⟩
    let l : SubscriberList := ⟨[⟨"a", 0⟩, ⟨"b", 1⟩, ⟨"c", 0⟩, ⟨"d", 2⟩]⟩
    let told := Channels.deliver (l.notices ⟨"k", "v"⟩) cs
    told.delivered = 2 ∧
      told.errors = [.transport (.failed "writing notification" ⟨.other, "full"⟩)] := by
  decide +kernel

end Audience

end KeyWatch
