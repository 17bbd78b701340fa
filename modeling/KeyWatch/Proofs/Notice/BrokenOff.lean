import KeyWatch.Channel
import KeyWatch.Proofs.Pipe.Steady
import KeyWatch.Wire.Notification

/-!
# Sending on channels that fail

A channel may take a frame in pieces, fail in the middle of it and take the next frame whole. What
its client reads is what the channel took, and frames have no bounds but their size, so a frame that
was broken off shifts all that follows: the client then reads what nobody sent
(`Channels.values_stream_brokenOff`). Up to there it reads what was taken whole, and a send that
goes well is taken whole (`Channels.values_stream`). A send that fails with no byte taken, as one
that cannot be encoded does, or with all, as one whose flush fails, does no harm.
-/

namespace KeyWatch

/-! ## What a channel takes -/

/-- The bytes that leave in a delivery, of all its `emissions` in order. -/
def Delivery.bytes (d : Delivery) : Bytes := d.emissions.flatMap Emission.bytes

namespace Channels

/-- The bytes that a channel holds back in its sink, and none if it is closed. -/
def pending (cs : Channels) (id : ChannelId) : Bytes :=
  match cs.sink? id with
  | some sink => sink.pending
  | none => []

/-- The bytes of a notice's frame that its channel takes, as far as `offer` gets with them. -/
def taken (cs : Channels) (n : Notice) : Bytes :=
  match n.notification.encode, cs.sink? n.channel with
  | .ok frame, some sink => (offer frame sink.script).taken
  | _, _ => []

variable {cs : Channels} {n : Notice} {frame : Bytes} {sink : Sink}

/-- A `send` on an open channel of what can be encoded is the `Sink.send` of its sink, with what
leaves put on the line of the channel. -/
theorem send_of_open (hframe : n.notification.encode = .ok frame)
    (hsink : cs.sink? n.channel = some sink) :
    cs.send n = ⟨if (sink.send "writing notification" frame).error.isNone then 1 else 0,
      (sink.send "writing notification" frame).error.toList,
      (sink.send "writing notification" frame).emitted.toList.map (emission n.channel sink),
      cs.setSink n.channel (some (sink.send "writing notification" frame).sink)⟩ := by
  rw [send, hframe]
  simp only [hsink]

/-- Of what can be encoded an open channel has `taken` what the `offer` to its sink takes. -/
theorem taken_of_open (hframe : n.notification.encode = .ok frame)
    (hsink : cs.sink? n.channel = some sink) : cs.taken n = (offer frame sink.script).taken := by
  rw [taken, hframe, hsink]

/-- Where a channel is closed or a notice has no frame, `send` gives an error, nothing is `taken`
and nothing changes. -/
theorem send_of_not_open (h : ∀ frame sink, n.notification.encode = .ok frame →
    cs.sink? n.channel ≠ some sink) :
    cs.taken n = [] ∧ (cs.send n).emissions = [] ∧ (cs.send n).channels = cs ∧
      (cs.send n).errors ≠ [] := by
  unfold taken send
  cases hframe : n.notification.encode with
  | error fault => exact ⟨rfl, rfl, rfl, nofun⟩
  | ok frame =>
    cases hsink : cs.sink? n.channel with
    | none => exact ⟨rfl, rfl, rfl, nofun⟩
    | some sink => exact absurd hsink (h frame sink hframe)

/-- A notice finds its channel open and has a frame (`send_of_open`), or it does not
(`send_of_not_open`). -/
theorem open_or_not (cs : Channels) (n : Notice) :
    (∃ frame sink, n.notification.encode = .ok frame ∧ cs.sink? n.channel = some sink) ∨
      ∀ frame sink, n.notification.encode = .ok frame → cs.sink? n.channel ≠ some sink := by
  by_cases h : ∃ frame sink, n.notification.encode = .ok frame ∧ cs.sink? n.channel = some sink
  · exact .inl h
  · exact .inr fun frame sink hframe hsink => h ⟨frame, sink, hframe, hsink⟩

/-- What a `send` adds to what has left and to what is held back is what is `taken`. -/
theorem bytes_send (cs : Channels) (n : Notice) :
    (cs.send n).bytes ++ (cs.send n).channels.pending n.channel =
      cs.pending n.channel ++ cs.taken n := by
  rcases open_or_not cs n with ⟨frame, sink, hframe, hsink⟩ | hnot
  · have hafter : (cs.send n).channels.pending n.channel =
        (sink.send "writing notification" frame).sink.pending := by
      rw [send_of_open hframe hsink, pending, sink?_setSink hsink, if_pos rfl]
    have hpending : cs.pending n.channel = sink.pending := by rw [pending, hsink]
    rw [hafter, hpending, taken_of_open hframe hsink, send_of_open hframe hsink, Delivery.bytes,
      Sink.send, Sink.write]
    cases (offer frame sink.script).fault with
    | none => simp [emission, Sink.advance]
    | some fault => simp
  · obtain ⟨htaken, hemissions, hchannels, -⟩ := send_of_not_open hnot
    rw [Delivery.bytes, hemissions, hchannels, htaken, List.append_nil]
    rfl

/-- A `send` that gives no error has `taken` the frame of the notification whole. -/
theorem encode_of_errors (h : (cs.send n).errors = []) :
    n.notification.encode = .ok (cs.taken n) := by
  rcases open_or_not cs n with ⟨frame, sink, hframe, hsink⟩ | hnot
  · rw [taken_of_open hframe hsink, hframe]
    rcases offer_taken frame sink.script with ⟨-, htaken⟩ | ⟨hfault, -⟩
    · rw [htaken]
    · obtain ⟨fault, hfault⟩ := Option.ne_none_iff_exists'.1 hfault
      rw [send_of_open hframe hsink] at h
      simp [Sink.send, Sink.write, hfault] at h
  · exact absurd h (send_of_not_open hnot).2.2.2

/-- Of a frame is `taken` all, or less than its size. -/
theorem encode_or_length_taken (cs : Channels) (n : Notice) :
    n.notification.encode = .ok (cs.taken n) ∨
      (cs.taken n).length < Notification.frameSize := by
  rcases open_or_not cs n with ⟨frame, sink, hframe, hsink⟩ | hnot
  · rw [taken_of_open hframe hsink, hframe, ← Notification.length_encode hframe]
    exact (offer_taken frame sink.script).imp (fun h => congrArg Except.ok h.2.symm) And.right
  · rw [(send_of_not_open hnot).1]
    exact .inr (by decide)

end Channels

/-! ## Rows of sends -/

/-- What became of a notification that was sent: the bytes of its frame that were taken
(`Channels.taken`), and whether the send went well. -/
structure Sent where
  notification : Notification
  taken : Bytes
  ok : Bool
  deriving DecidableEq, Repr

/-- Whether a frame was taken whole, by its size (`Notification.frameSize`). -/
def Sent.isWhole (s : Sent) : Bool := s.taken.length == Notification.frameSize

/-- Whether a frame was broken off: some of its bytes were taken, and not all. -/
def Sent.isBroken (s : Sent) : Bool :=
  !s.taken.isEmpty && decide (s.taken.length < Notification.frameSize)

namespace Channels

/-- What becomes of notifications that are sent on a channel by `send` one after another. -/
def sendAll (id : ChannelId) : List Notification → Channels → List Sent
  | [], _ => []
  | n :: rest, cs =>
    ⟨n, cs.taken ⟨id, n⟩, (cs.send ⟨id, n⟩).errors.isEmpty⟩ ::
      sendAll id rest (cs.send ⟨id, n⟩).channels

/-- The bytes that leave on a channel while notifications are sent on it by `send` one after
another, and when it is closed by `close` in the end. -/
def stream (id : ChannelId) : List Notification → Channels → Bytes
  | [], cs => (cs.close id).1.flatMap Emission.bytes
  | n :: rest, cs => (cs.send ⟨id, n⟩).bytes ++ stream id rest (cs.send ⟨id, n⟩).channels

/-- What leaves on a channel is what it held back and what it has `taken` of each notification; by
induction with `bytes_send`. -/
theorem stream_eq (id : ChannelId) (ns : List Notification) (cs : Channels) :
    cs.stream id ns = cs.pending id ++ (cs.sendAll id ns).flatMap Sent.taken := by
  induction ns generalizing cs with
  | nil =>
    rw [stream, sendAll, List.flatMap_nil, List.append_nil, close, pending]
    cases cs.sink? id with
    | none => rfl
    | some sink =>
      simp only [Sink.remainder]
      split
      case isTrue hnone => exact (List.isEmpty_iff.1 hnone).symm
      case isFalse => simp [emission]
  | cons n rest ih =>
    rw [stream, ih, sendAll, List.flatMap_cons, ← List.append_assoc, ← List.append_assoc]
    exact congrArg (· ++ _) (bytes_send cs ⟨id, n⟩)

/-- The notifications of the row that `sendAll` gives are those that were sent, in order. -/
theorem notifications_sendAll (id : ChannelId) (ns : List Notification) (cs : Channels) :
    (cs.sendAll id ns).map Sent.notification = ns := by
  induction ns generalizing cs with
  | nil => rfl
  | cons n rest ih => exact congrArg (n :: ·) (ih _)

/-- What goes well in `sendAll` is taken whole, and what is not taken whole is taken in part
(`encode_or_length_taken`). -/
theorem of_mem_sendAll {id : ChannelId} {ns : List Notification} {cs : Channels} {s : Sent}
    (h : s ∈ cs.sendAll id ns) :
    s.notification ∈ ns ∧ (s.ok = true → s.isWhole = true) ∧
      (s.notification.encode = .ok s.taken ∨ s.taken.length < Notification.frameSize) := by
  induction ns generalizing cs with
  | nil => cases h
  | cons n rest ih =>
    rcases List.mem_cons.1 h with rfl | hrest
    · refine ⟨List.mem_cons_self, fun hok => ?_, encode_or_length_taken cs ⟨id, n⟩⟩
      have hencode := encode_of_errors (List.isEmpty_iff.1 hok)
      exact beq_iff_eq.2 (Notification.length_encode hencode)
    · obtain ⟨hmem, hrest⟩ := ih hrest
      exact ⟨List.mem_cons_of_mem n hmem, hrest⟩

end Channels

/-- Of sends of which none was broken off (`Sent.isBroken`), only those that were taken whole took
any bytes. -/
theorem flatMap_taken_filter {sends : List Sent}
    (h : ∀ s ∈ sends, s.isBroken = false ∧ s.taken.length ≤ Notification.frameSize) :
    (sends.filter Sent.isWhole).flatMap Sent.taken = sends.flatMap Sent.taken := by
  induction sends with
  | nil => rfl
  | cons s rest ih =>
    have hrest := ih fun r hr => h r (List.mem_cons_of_mem s hr)
    obtain ⟨hbroken, hle⟩ := h s List.mem_cons_self
    rw [List.filter_cons, List.flatMap_cons]
    split
    case isTrue => rw [List.flatMap_cons, hrest]
    case isFalse hwhole =>
      have hlt : s.taken.length < Notification.frameSize :=
        Nat.lt_of_le_of_ne hle fun he => hwhole (beq_iff_eq.2 he)
      have hnone : s.taken = [] := by
        simpa [Sent.isBroken, hlt] using hbroken
      rw [hnone, hrest, List.nil_append]

/-- A client reads the notifications that its channel took whole before the first that was broken
off (`Sent.isBroken`), in the order in which they were sent, however the bytes arrive; and it reads
no other, if no byte was taken after the one that was broken off. A send that went well was taken
whole. -/
theorem Channels.values_stream {ε : Type} {id : ChannelId} {cs : Channels}
    {ns : List Notification} {source : Source ε} (hpending : cs.pending id = [])
    (hnul : ∀ n ∈ ns, hasNul n.key = false ∧ hasNul n.value = false) (hsteady : source.Steady)
    (hcontent : source.content = cs.stream id ns) :
    (cs.sendAll id ns).map Sent.notification = ns ∧
      (∀ s ∈ cs.sendAll id ns, s.ok = true → s.isWhole = true) ∧
      ∃ more, Received.values (readAll Notification.read source) =
          (((cs.sendAll id ns).takeWhile (!·.isBroken)).filter Sent.isWhole).map
            Sent.notification ++ more ∧
        ((∀ s ∈ ((cs.sendAll id ns).dropWhile (!·.isBroken)).tail, s.taken = []) → more = []) := by
  have hmem : ∀ s ∈ cs.sendAll id ns, _ := fun s hs => of_mem_sendAll hs
  refine ⟨notifications_sendAll id ns cs, fun s hs => (hmem s hs).2.1, ?_⟩
  rw [stream_eq, hpending, List.nil_append] at hcontent
  generalize cs.sendAll id ns = sends at hmem hcontent ⊢
  let before := sends.takeWhile (!·.isBroken)
  let after := sends.dropWhile (!·.isBroken)
  have hsplit : before ++ after = sends := List.takeWhile_append_dropWhile
  have hbefore : ∀ s ∈ before, s.isBroken = false ∧ s.taken.length ≤ Notification.frameSize := by
    intro s hs
    have hintact := List.all_eq_true.1 (List.all_takeWhile (l := sends)) s hs
    refine ⟨by simpa using hintact, ?_⟩
    rcases (hmem s (List.takeWhile_subset _ hs)).2.2 with hencode | hlt
    · exact Nat.le_of_eq (Notification.length_encode hencode)
    · exact Nat.le_of_lt hlt
  have hframes : ∀ p ∈ (before.filter Sent.isWhole).map fun s => (s.taken, s.notification),
      p.1.length = Notification.frameSize ∧ Notification.decode p.1 = .ok p.2 := by
    intro p hp
    obtain ⟨s, hs, rfl⟩ := List.mem_map.1 hp
    obtain ⟨hs, hwhole⟩ := List.mem_filter.1 hs
    obtain ⟨hsent, -, hencode⟩ := hmem s (List.takeWhile_subset _ hs)
    have hlength : s.taken.length = Notification.frameSize := beq_iff_eq.1 hwhole
    obtain ⟨hkey, hvalue⟩ := hnul s.notification hsent
    refine ⟨hlength, Notification.decode_encode (hencode.resolve_right ?_) hkey hvalue⟩
    exact Nat.not_lt.2 (Nat.le_of_eq hlength.symm)
  have hbytes : source.content =
      ((before.filter Sent.isWhole).map fun s => (s.taken, s.notification)).flatMap Prod.fst ++
        after.flatMap Sent.taken := by
    rw [hcontent, ← hsplit, List.flatMap_append, ← flatMap_taken_filter hbefore, List.flatMap_map]
  obtain ⟨more, hvalues, hend⟩ := values_go_of_steady "notification" (by decide) hframes
    (Nat.lt_succ_self source.weight) hsteady hbytes
  refine ⟨more, ?_, fun hnone => hend ?_⟩
  · rw [List.map_map] at hvalues
    exact hvalues
  · -- what is left is the part of the broken frame, for nothing was taken after it
    cases hafter : after with
    | nil => exact by decide
    | cons s rest =>
      have hrest : rest.flatMap Sent.taken = [] := by
        refine List.flatMap_eq_nil_iff.2 fun r hr => hnone r ?_
        rw [show sends.dropWhile (!·.isBroken) = s :: rest from hafter]
        exact hr
      have hbroken : s.isBroken = true := by
        have hhead := List.head?_dropWhile_not (fun s : Sent => !s.isBroken) sends
        rw [show sends.dropWhile (!·.isBroken) = s :: rest from hafter] at hhead
        simpa using hhead
      rw [List.flatMap_cons, hrest, List.append_nil]
      simp only [Sent.isBroken, Bool.and_eq_true, decide_eq_true_eq] at hbroken
      exact hbroken.2

/-- A channel whose reader goes: one frame is taken whole and one byte of the next, and then every
write fails (`Channels.values_stream`). -/
def readerGoes : Channels :=
  ⟨[some { script := [.accept 82, .accept 1, .fail (.ofKind .brokenPipe),
    .fail (.ofKind .brokenPipe)] }]⟩

/-- What leaves on the channel `readerGoes`, as it arrives: in pieces, and with a read that is
interrupted. -/
def lastBytes : Source Unit :=
  [.bytes [97], .fail (.ofKind .interrupted),
    .bytes (List.replicate 40 0 ++ 98 :: List.replicate 40 0 ++ [99])]

/-- Of three notifications on `readerGoes` the first is read and nothing else, for nothing follows
the second. -/
theorem Channels.values_stream_readerGoes :
    Received.values (readAll Notification.read lastBytes) = [⟨"a", "b"⟩] := by
  obtain ⟨-, -, more, hvalues, hend⟩ := @Channels.values_stream Unit 0 readerGoes
    [⟨"a", "b"⟩, ⟨"c", "d"⟩, ⟨"e", "f"⟩] lastBytes rfl (by decide +kernel)
    (by simp [lastBytes, Source.Steady, Piece.Steady, IoFault.ofKind]) (by decide +kernel)
  rw [hvalues, hend (by decide +kernel)]
  decide +kernel

/-- A channel that takes the first field of a frame, fails, and takes everything from then on, as no
`values_stream` forbids. -/
def failsOnce : Channels := ⟨[some { script := [.accept 41, .fail (.ofKind .other)] }]⟩

/-- On `failsOnce` a frame that is broken off shifts the next: the second send goes well, and what
is read is the key of the first with the key of the second for a value, which nobody sent. -/
theorem Channels.values_stream_brokenOff :
    (failsOnce.sendAll 0 [⟨"k", "v"⟩, ⟨"a", "b"⟩]).map Sent.ok = [false, true] ∧
      Received.values (readAll Notification.read
        ([.bytes (failsOnce.stream 0 [⟨"k", "v"⟩, ⟨"a", "b"⟩])] : Source Unit)) = [⟨"k", "a"⟩] := by
  decide +kernel

end KeyWatch
