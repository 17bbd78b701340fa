import KeyWatch.Engine
import KeyWatch.Proofs.Files.Places

/-!
# What notices write into files

A channel whose sink has a place in a file writes there. Notices write into the files of channels
and leave every other file and all places as they are (`Engine.writesOnly_deliver`), and no channel
comes by another file through them.
-/

namespace KeyWatch

namespace Channels

/-- Some channel has a cursor (`FileCursor`) in a file, and so writes into it. -/
def WritesTo (cs : Channels) (n : Nat) : Prop :=
  ∃ id sink cursor, cs.sink? id = some sink ∧ sink.cursor = some cursor ∧ cursor.node = n

/-- A sink that takes a frame by `Sink.send` stays at its file: a cursor after it is in the file of
one before. -/
theorem exists_cursor_of_send {s : Sink} {context : String} {frame : Bytes} {cursor : FileCursor}
    (h : (s.send context frame).sink.cursor = some cursor) :
    ∃ old, s.cursor = some old ∧ old.node = cursor.node := by
  unfold Sink.send Sink.write at h
  split at h
  case h_1 fault sink hwrite =>
    obtain ⟨-, rfl⟩ := Prod.mk.inj hwrite
    exact ⟨cursor, h, rfl⟩
  case h_2 sink hwrite =>
    obtain ⟨-, rfl⟩ := Prod.mk.inj hwrite
    obtain ⟨old, hold, rfl⟩ := Option.map_eq_some_iff.1 h
    exact ⟨old, hold, rfl⟩

/-- A notice that is sent goes into the file of its channel (`WritesTo`), and no channel comes by
another file. -/
theorem writesTo_send (cs : Channels) (n : Notice) :
    (∀ o ∈ (cs.send n).emissions, ∀ cursor, o.line = .file cursor → cs.WritesTo cursor.node) ∧
      ∀ m, (cs.send n).channels.WritesTo m → cs.WritesTo m := by
  unfold send
  split
  case h_1 => exact ⟨nofun, fun _ hm => hm⟩
  case h_2 frame hframe =>
    split
    case h_1 => exact ⟨nofun, fun _ hm => hm⟩
    case h_2 sink hsink =>
      refine ⟨fun o ho cursor hline => ?_, fun m hm => ?_⟩
      · obtain ⟨bytes, -, rfl⟩ := List.mem_map.1 ho
        unfold emission Sink.line at hline
        split at hline
        case h_1 old hold =>
          cases hline
          exact ⟨n.channel, sink, cursor, hsink, hold, rfl⟩
        case h_2 => cases hline
      · obtain ⟨id, other, cursor, hother, hcursor, rfl⟩ := hm
        rw [sink?_setSink hsink] at hother
        split at hother
        case isTrue =>
          cases hother
          obtain ⟨old, hold, hnode⟩ := exists_cursor_of_send hcursor
          exact ⟨n.channel, sink, old, hsink, hold, hnode⟩
        case isFalse => exact ⟨id, other, cursor, hother, hcursor, rfl⟩

/-- What is delivered goes into the files of channels (`WritesTo`), and no channel comes by another
file on the way. -/
theorem writesTo_deliver (notices : List Notice) (cs : Channels) :
    (∀ o ∈ (deliver notices cs).emissions, ∀ cursor, o.line = .file cursor →
        cs.WritesTo cursor.node) ∧
      ∀ m, (deliver notices cs).channels.WritesTo m → cs.WritesTo m := by
  induction notices generalizing cs with
  | nil => exact ⟨nofun, fun _ hm => hm⟩
  | cons n rest ih =>
    rw [deliver]
    split
    case isTrue => exact ih cs
    case isFalse =>
      obtain ⟨hfirst, hkept⟩ := writesTo_send cs n
      obtain ⟨hmore, hkept'⟩ := ih (cs.send n).channels
      refine ⟨fun o ho cursor hline => ?_, fun m hm => hkept m (hkept' m hm)⟩
      rcases List.mem_append.1 ho with ho | ho
      · exact hfirst o ho cursor hline
      · exact hkept _ (hmore o ho cursor hline)

end Channels

namespace Engine

/-- Bytes that leave by `Engine.emitAll` go into the files on whose lines they are, and into no
other. -/
theorem writesOnly_emitAll {written : Nat → Prop} {out : List Emission} (e : Engine)
    (h : ∀ o ∈ out, ∀ cursor, o.line = .file cursor → written cursor.node) :
    e.files.WritesOnly written (e.emitAll out).files := by
  unfold emitAll
  induction out generalizing e with
  | nil => exact .refl written e.files
  | cons o rest ih =>
    refine .trans ?_ (ih (e.emit o) fun p hp => h p (List.mem_cons_of_mem o hp))
    unfold emit
    split
    case h_1 cursor hline =>
      refine (e.files.writesOnly_writeAt cursor.node cursor.offset o.bytes).mono fun m hm => ?_
      rw [hm]
      exact h o List.mem_cons_self cursor hline
    case h_2 => exact .refl written e.files

/-- Bytes that leave by `Engine.emitAll` leave the backups as they are. -/
@[simp] theorem backups_emitAll (e : Engine) (out : List Emission) :
    (e.emitAll out).backups = e.backups := by
  rw [emitAll_eq]

/-- Notices that are sent by `Engine.tell` go into the files of channels, no channel comes by
another, and the backups stay. -/
theorem writesOnly_tell (e : Engine) (notices : List Notice) :
    e.files.WritesOnly e.channels.WritesTo (e.tell notices).files ∧
      (∀ m, (e.tell notices).channels.WritesTo m → e.channels.WritesTo m) ∧
      (e.tell notices).backups = e.backups := by
  obtain ⟨hwritten, hkept⟩ := Channels.writesTo_deliver notices e.channels
  refine ⟨?_, fun m hm => hkept m ?_, ?_⟩
  · exact writesOnly_emitAll { e with channels := (Channels.deliver notices e.channels).channels }
      hwritten
  · rwa [tell, channels_emitAll] at hm
  · rw [tell, backups_emitAll]

/-- Notices that are sent by `Engine.deliver` go into the files of channels, no channel comes by
another, and the backups stay; by induction with `writesOnly_tell`. -/
theorem writesOnly_deliver (e : Engine) (notices : List Notice) :
    e.files.WritesOnly e.channels.WritesTo (e.deliver notices).files ∧
      (∀ m, (e.deliver notices).channels.WritesTo m → e.channels.WritesTo m) ∧
      (e.deliver notices).backups = e.backups := by
  unfold deliver
  generalize notices.splitBy _ = groups
  induction groups generalizing e with
  | nil => exact ⟨.refl _ e.files, fun _ hm => hm, rfl⟩
  | cons told rest ih =>
    obtain ⟨hwrites, hkept, hbackups⟩ := e.writesOnly_tell told
    obtain ⟨hwrites', hkept', hbackups'⟩ := ih ((e.tell told).part (told.map Notice.channel))
    rw [List.foldl_cons]
    exact ⟨hwrites.trans (hwrites'.mono hkept), fun m hm => hkept m (hkept' m hm),
      hbackups'.trans hbackups⟩

end Engine

end KeyWatch
