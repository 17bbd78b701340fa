import KeyWatch.Proofs.Notice.Law
import KeyWatch.Proofs.Notice.OneChannel
import KeyWatch.Proofs.Pipe.Steady

/-!
# Following a key from its notices

A client that listens on a channel of its own, which takes everything, reads the notices of its keys
as they were sent (`values_of_emissions`), and what a notice says is so in the table at the moment
when it is sent (`Notification.Holds`): a write is told once the entry has the value, and a deletion
once the entry is gone. So the client knows its keys from the notices alone (`follows_keys`), but
for two things that the wire cannot say. The news of a deletion is a value, which may be written as
well, and a text with a NUL is cut there. A job may write either (`follows_keys_ambiguous`).
-/

namespace KeyWatch

open History

/-- Whether what a notification says is so in a table. It is news of a deletion (`isDelete`) just if
its key has no entry, or one with the value that stands for a deletion; else its key has its
value. -/
structure Notification.Holds (n : Notification) (t : Table) : Prop where
  isDelete : n.isDelete = true ↔ t.contains n.key = false ∨ t.read n.key = some deletedValue
  read : n.isDelete = false → t.read n.key = some n.value

/-- The notices of what happens in a row (`Happening.effect`), each with the table at the moment
when it is sent. -/
def tellings (listens : String → ChannelId) : List Happening → Table → List (Notice × Table)
  | [], _ => []
  | now :: rest, t =>
    let effect := now.effect listens t
    effect.notices.map (·, effect.state) ++ tellings listens rest effect.state

/-- The notices that the table sends on actions one after another, each with the table at the moment
when it is sent, by the `tellings` of what happens in each. -/
def Action.tellings (listens : String → ChannelId) : List Action → Engine → List (Notice × Table)
  | [], _ => []
  | a :: rest, e =>
    KeyWatch.tellings listens a.happenings e.table ++ tellings listens rest (a.perform listens e)

variable {listens : String → ChannelId}

/-- The notices among the `tellings` of what happens in a row are those of its effects one after
another (`Effect.each`). -/
theorem fst_tellings (hs : List Happening) (t : Table) :
    (tellings listens hs t).map Prod.fst =
      (Effect.each (Happening.effect listens) hs t).notices := by
  induction hs generalizing t with
  | nil => rfl
  | cons now rest ih =>
    rw [tellings, List.map_append, ih, List.map_map, Effect.each_cons]
    exact congrArg (· ++ _) (List.map_id _)

/-- The notices among the `tellings` of actions are those that the table sends
(`Action.attempts`). -/
theorem Action.fst_tellings (actions : List Action) (e : Engine) :
    (Action.tellings listens actions e).map Prod.fst = Action.attempts listens actions e := by
  induction actions generalizing e with
  | nil => rfl
  | cons a rest ih =>
    rw [Action.tellings, List.map_append, ih, KeyWatch.fst_tellings, ← notices_eq_each]
    rfl

/-! ## What a notice says -/

/-- The notice of a write holds in the table behind it (`Table.write`): the value that was written
is there. -/
theorem Notification.holds_write {t : Table} {key : String} (hr : (route key).isSome = true)
    (value : String) : Notification.Holds ⟨key, value⟩ (t.write key value).state := by
  have hcontains : (t.write key value).state.contains key = true :=
    Table.contains_write.2 (.inl ⟨rfl, hr⟩)
  have hread : (t.write key value).state.read key = some value := by
    rw [Table.read_write, if_pos ⟨rfl, hr⟩]
  refine ⟨?_, fun _ => hread⟩
  rw [hcontains, hread, Option.some_inj, Notification.isDelete, beq_iff_eq]
  simp

/-- The notice of a deletion holds in the table behind it (`Table.delete`): the key has no entry. -/
theorem Notification.holds_delete (t : Table) (key : String) :
    (Notification.deleted key).Holds (t.delete key).state := by
  have hgone : (t.delete key).state.contains key = false :=
    Bool.eq_false_iff.2 fun h => (Table.contains_delete.1 h).1 rfl
  exact ⟨⟨fun _ => .inl hgone, fun _ => rfl⟩, nofun⟩

namespace Table.Follows

variable {t : Table} {past : History} {e : Engine} {id : ChannelId}

/-- What is told of something that happens is so in the table behind it (`Notification.Holds`), and
it is told to one who subscribed to the key. -/
theorem holds (h : t.Follows listens past) {now : Happening} {n : Notice}
    (hn : n ∈ (now.effect listens t).notices) :
    n.notification.Holds (now.effect listens t).state ∧
      ∃ client, n.channel = listens client ∧ .subscribe n.notification.key client ∈ past := by
  have htold := hn
  rw [(h.effect now).1] at htold
  cases now with
  | subscribe | unsubscribe | leave => cases htold
  | write key value =>
    obtain ⟨client, hclient, rfl⟩ := List.mem_map.1 htold
    have hr : (route key).isSome = true := by
      cases hroute : route key with
      | some => rfl
      | none =>
        have hnone : (t.write key value).notices = [] := by
          rw [Table.write, hroute]
          rfl
        replace hn : _ ∈ (t.write key value).notices := hn
        rw [hnone] at hn
        cases hn
    exact ⟨Notification.holds_write hr value, client, rfl,
      mem_of_watching (mem_watchers.1 hclient)⟩
  | delete key =>
    rw [told] at htold
    split at htold
    case isFalse => cases htold
    case isTrue =>
      obtain ⟨client, hclient, rfl⟩ := List.mem_map.1 htold
      exact ⟨Notification.holds_delete t key, client, rfl,
        mem_of_watching (mem_watchers.1 hclient)⟩

/-- All that is told of what happens in a row is so at its moment, and it is told to one who
subscribed to the key; by induction with `holds`. -/
theorem holds_tellings (h : t.Follows listens past) (hs : List Happening) :
    ∀ telling ∈ tellings listens hs t,
      telling.1.notification.Holds telling.2 ∧ ∃ client, telling.1.channel = listens client ∧
        .subscribe telling.1.notification.key client ∈ hs.reverse ++ past := by
  induction hs generalizing t past with
  | nil => exact nofun
  | cons now rest ih =>
    intro telling htelling
    rw [List.reverse_cons, List.append_assoc]
    rcases List.mem_append.1 htelling with hnow | hlater
    · obtain ⟨n, hn, rfl⟩ := List.mem_map.1 hnow
      obtain ⟨hholds, client, hchannel, hmem⟩ := h.holds hn
      exact ⟨hholds, client, hchannel,
        List.mem_append_right _ (List.mem_append_right _ hmem)⟩
    · exact ih (h.effect now).2 telling hlater

/-- An action leaves on a willing channel the frames of its notices that are for it. The table
follows the history after it, and the channel stays willing (`sentOn_deliver`). -/
theorem sentOn_perform (h : e.table.Follows listens past) (a : Action)
    (hopen : e.channels.Willing id) :
    (a.perform listens e).table.Follows listens (a.happenings.reverse ++ past) ∧
      (a.perform listens e).channels.Willing id ∧
      ∃ out, ((a.notices e.table).filter (·.channel == id)).map Notice.emission? = out.map .ok ∧
        (a.perform listens e).sentOn id = e.sentOn id ++ out := by
  obtain ⟨e', hperform, htable, hchannels, hsent⟩ : ∃ e' : Engine, a.perform listens e = _ ∧ _ :=
    Action.perform_eq_deliver e a
  obtain ⟨htold, hfollows⟩ := h.each a.happenings
  rw [← Action.notices_eq_each] at htold
  obtain ⟨out, hout⟩ : ((a.notices e.table).filter (·.channel == id)).map Notice.emission? ∈
      Set.range (List.map .ok) := by
    rw [Set.range_list_map]
    intro m hm
    obtain ⟨n, hn, rfl⟩ := List.mem_map.1 hm
    exact Action.exists_emission (htold ▸ (List.mem_filter.1 hn).1)
  obtain ⟨hleft, hkeep⟩ := Engine.sentOn_deliver (hchannels ▸ hopen) hout.symm
  rw [← hperform] at hleft hkeep
  refine ⟨?_, hkeep, out, hout.symm, ?_⟩
  · rw [hperform, Engine.table_deliver, htable]
    exact hfollows
  · rw [hleft, Engine.sentOn, hsent]
    rfl

/-- What is told in a run of actions is so when it is told, to one who subscribed to the key, and it
is of `fields` of the lines. On a willing channel leave the frames of the notices that are for
it. -/
theorem tellings_performAll (h : e.table.Follows listens past) (actions : List Action)
    (hopen : e.channels.Willing id) :
    (∀ telling ∈ Action.tellings listens actions e,
      telling.1.notification.Holds telling.2 ∧ (∃ client, telling.1.channel = listens client ∧
        .subscribe telling.1.notification.key client ∈
          (actions.flatMap Action.happenings).reverse ++ past) ∧
      ∃ a ∈ actions, telling.1.notification.key ∈ a.fields ∧
        (telling.1.notification.value ∈ a.fields ∨
          telling.1.notification.value = Notification.deletedValue)) ∧
    ∃ out, ((Action.attempts listens actions e).filter (·.channel == id)).map Notice.emission? =
        out.map .ok ∧
      (Action.performAll listens actions e).sentOn id = e.sentOn id ++ out := by
  induction actions generalizing past e with
  | nil => exact ⟨nofun, [], rfl, (List.append_nil _).symm⟩
  | cons a rest ih =>
    obtain ⟨hfollows, hkeep, first, hfirst, hsent⟩ := h.sentOn_perform a hopen
    obtain ⟨htold, more, hmore, hlater⟩ := ih hfollows hkeep
    refine ⟨?_, first ++ more, ?_, ?_⟩
    · intro telling htelling
      rw [List.flatMap_cons, List.reverse_append, List.append_assoc]
      rcases List.mem_append.1 htelling with hnow | hrest
      · obtain ⟨hholds, client, hchannel, hmem⟩ := h.holds_tellings a.happenings telling hnow
        have hnews : telling.1 ∈ news listens past a.happenings := by
          rw [← (h.each a.happenings).1, ← fst_tellings]
          exact List.mem_map_of_mem hnow
        exact ⟨hholds, ⟨client, hchannel, List.mem_append_right _ hmem⟩, a, List.mem_cons_self,
          Action.mem_fields hnews⟩
      · obtain ⟨hholds, hwho, b, hb, hfields⟩ := htold telling hrest
        exact ⟨hholds, hwho, b, List.mem_cons_of_mem a hb, hfields⟩
    · rw [Action.attempts, List.filter_append, List.map_append, hfirst, hmore, List.map_append]
    · rw [Action.performAll, List.foldl_cons]
      exact hlater.trans (by rw [hsent, List.append_assoc])

end Table.Follows

/-! ## What the client reads -/

/-- Frames of notices without NUL are read by `readAll` as the notifications that were sent, from
every steady source. -/
theorem values_of_emissions {ε : Type} {notices : List Notice} {out : List Emission}
    (hout : notices.map Notice.emission? = out.map .ok)
    (hnul : ∀ n ∈ notices, hasNul n.notification.key = false ∧ hasNul n.notification.value = false)
    {source : Source ε} (hsteady : source.Steady)
    (hcontent : source.content = out.flatMap Emission.bytes) :
    Received.values (readAll Notification.read source) = notices.map Notice.notification := by
  obtain ⟨frames, hbytes, hvalues, hframes⟩ : ∃ frames : List (Bytes × Notification),
      frames.map Prod.fst = out.map Emission.bytes ∧
        frames.map Prod.snd = notices.map Notice.notification ∧
        ∀ p ∈ frames, p.1.length = Notification.frameSize ∧ Notification.decode p.1 = .ok p.2 := by
    clear hcontent
    induction notices generalizing out with
    | nil =>
      obtain rfl := List.map_eq_nil_iff.1 hout.symm
      exact ⟨[], rfl, rfl, nofun⟩
    | cons n rest ih =>
      obtain ⟨first, more, rfl, hfirst, hmore⟩ := List.map_eq_cons_iff.1 hout.symm
      obtain ⟨frame, hframe, rfl⟩ := Notice.emission?_eq_ok hfirst.symm
      obtain ⟨frames, hbytes, hvalues, hframes⟩ :=
        ih hmore.symm fun m hm => hnul m (List.mem_cons_of_mem n hm)
      obtain ⟨hkey, hvalue⟩ := hnul n List.mem_cons_self
      refine ⟨(frame, n.notification) :: frames, ?_, ?_, ?_⟩
      · rw [List.map_cons, List.map_cons, hbytes]
      · rw [List.map_cons, List.map_cons, hvalues]
      · intro p hp
        rcases List.mem_cons.1 hp with rfl | hp
        · exact ⟨Notification.length_encode hframe, Notification.decode_encode hframe hkey hvalue⟩
        · exact hframes p hp
  have hbytes : source.content = frames.flatMap Prod.fst ++ [] := by
    rw [hcontent, List.append_nil, List.flatMap_def, List.flatMap_def, hbytes]
  obtain ⟨more, hread, hend⟩ := values_go_of_steady "notification" (by decide) hframes
    (Nat.lt_succ_self source.weight) hsteady hbytes
  rw [hend (by decide), List.append_nil, hvalues] at hread
  exact hread

/-- Whatever jobs and clients do to an empty table, a client that listens on a willing channel of
its own reads the notices for it as they were sent, if no field of a line holds a NUL. Each is of a
key to which it subscribed, and is so in the table at the moment when it is sent
(`Notification.Holds`). -/
theorem follows_keys {ε : Type} {actions : List Action} {e : Engine} {client : String}
    {source : Source ε} (htable : e.table = .empty) (hsent : e.sent = [])
    (hopen : e.channels.Willing (listens client))
    (hown : ∀ other, listens other = listens client → other = client)
    (hnul : ∀ a ∈ actions, ∀ field ∈ a.fields, hasNul field = false) (hsteady : source.Steady)
    (hcontent : source.content =
      ((Action.performAll listens actions e).sentOn (listens client)).flatMap Emission.bytes) :
    (Action.tellings listens actions e).map Prod.fst = Action.attempts listens actions e ∧
      Received.values (readAll Notification.read source) =
        ((Action.tellings listens actions e).filter (·.1.channel == listens client)).map
          (·.1.notification) ∧
      ∀ telling ∈ Action.tellings listens actions e, telling.1.channel = listens client →
        .subscribe telling.1.notification.key client ∈ actions ∧
          telling.1.notification.Holds telling.2 := by
  have hfollows : e.table.Follows listens [] := htable ▸ .empty listens
  obtain ⟨htold, out, hout, hleft⟩ := hfollows.tellings_performAll actions hopen
  have hplain : ∀ n ∈ (Action.attempts listens actions e).filter (·.channel == listens client),
      hasNul n.notification.key = false ∧ hasNul n.notification.value = false := by
    intro n hn
    replace hn := (List.mem_filter.1 hn).1
    rw [← Action.fst_tellings] at hn
    obtain ⟨telling, htelling, rfl⟩ := List.mem_map.1 hn
    obtain ⟨-, -, a, ha, hkey, hvalue⟩ := htold telling htelling
    refine ⟨hnul a ha _ hkey, ?_⟩
    rcases hvalue with hfield | hdeleted
    · exact hnul a ha _ hfield
    · rw [hdeleted]
      decide
  refine ⟨Action.fst_tellings _ _, ?_, ?_⟩
  · rw [hleft, Engine.sentOn, hsent] at hcontent
    rw [values_of_emissions hout hplain hsteady hcontent, ← Action.fst_tellings, List.filter_map,
      List.map_map]
    rfl
  · intro telling htelling hchannel
    obtain ⟨hholds, ⟨other, hother, hmem⟩, -⟩ := htold telling htelling
    obtain rfl := hown other (hother.symm.trans hchannel)
    rw [List.append_nil, List.mem_reverse] at hmem
    obtain ⟨a, ha, hsubscribes⟩ := List.mem_flatMap.1 hmem
    exact ⟨Action.eq_subscribe_of_mem_happenings hsubscribes ▸ ha, hholds⟩

/-! ## A key that is written and deleted, and values that the wire cannot say -/

/-- A line that is read by `Job.Command.ofLine` as the write of one pair does to the store what a
single `write` does. -/
theorem perform_line_of_write (listens : String → ChannelId) {text key value : String}
    (h : Job.Command.ofLine text = .write [(key, value)]) (job : Job.State) (out : Sink)
    (e : Engine) :
    (Action.line text job out).perform listens e = (e.apply (·.write key value)).2 := by
  have hsorted : Table.inKeyOrder (·.1) [(key, value)] = [(key, value)] :=
    List.mergeSort_singleton _
  simp [Action.perform, h, Engine.execute, Engine.apply, Table.writeMany_eq_each, hsorted,
    Effect.each_cons, Table.writePair, Effect.map]

/-- A client that subscribes to a key, which a job then writes and deletes (`follows_keys`). -/
def writtenAndDeleted : List Action :=
  let job := Job.State.start "job" (.ofString "work")
  [.subscribe "k" "a", .line "WRITE [(k,v)]" job {}, .line "DELETE [k]" job {}]

/-- In `twoChannels` the channel of the client `a` is willing. -/
theorem willing_firstOrSecond : twoChannels.channels.Willing (firstOrSecond "a") := by
  refine ⟨_, rfl, ?_, rfl, rfl, rfl⟩
  intro allowance hmem
  rcases List.mem_pair.1 hmem with rfl | rfl
  · exact Nat.succ_pos 4
  · exact Nat.succ_pos 0

/-- By `firstOrSecond` only the client `a` listens on its channel. -/
theorem eq_of_firstOrSecond {other : String} (h : firstOrSecond other = firstOrSecond "a") :
    other = "a" := by
  rcases Decidable.eq_or_ne other "a" with ha | ha
  · exact ha
  · rw [firstOrSecond, if_neg ha] at h
    cases h

/-- What leaves on the first channel (`Engine.sentOn`), as it arrives: in two pieces, between which
a read is interrupted. -/
def inTwoPieces (e : Engine) : Source Unit :=
  let content := (e.sentOn 0).flatMap Emission.bytes
  [.bytes (content.take 50), .fail (.ofKind .interrupted), .bytes (content.drop 50)]

/-- In `writtenAndDeleted` the client reads the write and the deletion, and each is so when it is
told. -/
theorem follows_keys_writtenAndDeleted :
    Received.values (readAll Notification.read
      (inTwoPieces (Action.performAll firstOrSecond writtenAndDeleted twoChannels))) =
        [⟨"k", "v"⟩, .deleted "k"] ∧
      ∀ telling ∈ Action.tellings firstOrSecond writtenAndDeleted twoChannels,
        telling.1.channel = 0 → telling.1.notification.Holds telling.2 := by
  have hwrite : Job.Command.ofLine "WRITE [(k,v)]" = .write [("k", "v")] := by decide +kernel
  have hdelete : Job.Command.ofLine "DELETE [k]" = .delete ["k"] := by decide +kernel
  have hnul : ∀ a ∈ writtenAndDeleted, ∀ field ∈ a.fields, hasNul field = false := by
    simp only [writtenAndDeleted, List.forall_mem_cons, Action.fields, hwrite, hdelete]
    decide
  have hsteady : (inTwoPieces
      (Action.performAll firstOrSecond writtenAndDeleted twoChannels)).Steady := by
    simp [inTwoPieces, Source.Steady, Piece.Steady, IoFault.ofKind]
  obtain ⟨-, hvalues, hholds⟩ := follows_keys rfl rfl willing_firstOrSecond
    (fun _ => eq_of_firstOrSecond) hnul hsteady
    (by simp [inTwoPieces, Source.content, Piece.content, firstOrSecond])
  refine ⟨hvalues.trans ?_, fun telling htelling hchannel => (hholds telling htelling hchannel).2⟩
  have hsingle (pair : String × String) : Table.inKeyOrder (·.1) [pair] = [pair] :=
    List.mergeSort_singleton _
  have hkey : Table.inKeyOrder id ["k"] = ["k"] := List.mergeSort_singleton _
  simp only [writtenAndDeleted, Action.tellings, Action.happenings, hwrite, hdelete, hsingle, hkey,
    List.map_cons, List.map_nil, perform_line_of_write firstOrSecond hwrite]
  decide +kernel

/-- A store in which a client subscribed to a key and a job then executed a line
(`follows_keys`). -/
def subscribedAndExecuted (line : String) : Engine :=
  Action.performAll firstOrSecond
    [.subscribe "k" "a", .line line (.start "job" (.ofString "work")) {}] twoChannels

/-- The client hears of a key that is there as if it was deleted, where `deletedValue` was written,
and of a value that is cut at its NUL. -/
theorem follows_keys_ambiguous :
    (Received.values (readAll Notification.read
        (inTwoPieces (subscribedAndExecuted "WRITE [(k,DELETED)]"))) = [⟨"k", "DELETED"⟩] ∧
      Notification.isDelete ⟨"k", "DELETED"⟩ = true ∧
      (subscribedAndExecuted "WRITE [(k,DELETED)]").table.contains "k" = true) ∧
    (Received.values (readAll Notification.read
        (inTwoPieces (subscribedAndExecuted "WRITE [(k,a\x00b)]"))) = [⟨"k", "a"⟩] ∧
      Notification.isDelete ⟨"k", "a"⟩ = false ∧
      (subscribedAndExecuted "WRITE [(k,a\x00b)]").table.read "k" = some "a\x00b") := by
  have hwritten (value line : String) (h : Job.Command.ofLine line = .write [("k", value)]) :
      subscribedAndExecuted line =
        (((Action.subscribe "k" "a").perform firstOrSecond twoChannels).apply
          (·.write "k" value)).2 :=
    perform_line_of_write firstOrSecond h _ _ _
  rw [hwritten "DELETED" _ (by decide +kernel), hwritten "a\x00b" _ (by decide +kernel)]
  decide +kernel

end KeyWatch
