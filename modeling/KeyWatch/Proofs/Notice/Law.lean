import Mathlib.Data.Set.List
import KeyWatch.Job.Execute
import KeyWatch.Proofs.Job.Fields
import KeyWatch.Proofs.Notice.Delivery
import KeyWatch.Proofs.Notice.History
import KeyWatch.Proofs.Table.Contents

/-!
# The law of notices

Jobs execute lines and clients subscribe, unsubscribe and leave (`Action`). What leaves the store on
the channels is then a function of the history alone (`History.news`): every write of a key that has
a bucket and every deletion that finds an entry, told to those who watch the key at that moment, in
the order in which they began to (`sent_performAll`).

The table follows the history (`Table.Follows`): its entries are the keys that are alive, and the
list of a key is the list of its watchers. Whatever happens keeps this and is told as the history
says (`Table.Follows.effect`), and so does every row of happenings, as an action is one.
-/

namespace KeyWatch

open History

/-! ## Happenings on a table -/

/-- What something that happens does to the table, by the operations of `Table`, with the notices
that are due to it. -/
def Happening.effect (listens : String → ChannelId) (h : Happening) (t : Table) :
    Effect Table Unit :=
  match h with
  | write key value => (t.write key value).map fun _ => ()
  | delete key => (t.delete key).map fun _ => ()
  | subscribe key client =>
    match t.subscribe key client (listens client) with
    | .ok (_, after) => .pure () after
    | .error _ => .pure () t
  | unsubscribe key client => .pure () (t.unsubscribe key client).2
  | leave client => .pure () (t.removeAll client).2

/-- A table that is as the history says: it is consistent, the list of a key is the `listing` of its
watchers, and its entries are the keys that are `alive`. -/
structure Table.Follows (t : Table) (listens : String → ChannelId) (past : History) : Prop where
  consistent : t.Consistent
  lists : ∀ key, t.listOf key = listing listens key past
  entries : ∀ key, t.contains key = alive key past

namespace Table.Follows

variable {t : Table} {listens : String → ChannelId} {past : History}

/-- The empty table follows the empty history (`Table.Follows`). -/
theorem empty (listens : String → ChannelId) : Table.empty.Follows listens [] where
  consistent := .empty
  lists := listOf_empty
  entries key := by
    unfold Table.contains
    cases route key with
    | none => rfl
    | some i =>
      rw [Option.any_some, bucket_empty]
      rfl

/-- In a table that follows a history the notices to the list of a key go to its `watchers`, on the
channels on which they listen. -/
theorem notices_listOf (h : t.Follows listens past) (key : String) (n : Notification) :
    (t.listOf key).notices n = (watchers key past).map fun c => ⟨listens c, n⟩ := by
  rw [h.lists, SubscriberList.notices, listing, List.map_map]
  rfl

/-- What happens is `told` as the history says, and the table follows. One case for each kind of
`Happening`. -/
theorem effect (h : t.Follows listens past) (now : Happening) :
    (now.effect listens t).notices = told listens past now ∧
      (now.effect listens t).state.Follows listens (now :: past) := by
  cases now with
  | write key value =>
    refine ⟨(notices_write t key value).trans (h.notices_listOf key _),
      h.consistent.write key value, fun k => ?_, fun k => ?_⟩
    · rw [listing_write]
      exact (listOf_write t key value k).trans (h.lists k)
    · refine Bool.eq_iff_iff.2 (contains_write.trans ?_)
      rw [h.entries, alive, Bool.or_eq_true, Bool.and_eq_true, beq_iff_eq]
      refine or_congr_left ?_
      exact ⟨fun ⟨hk, hr⟩ => ⟨hk.symm, hk ▸ hr⟩, fun ⟨hk, hr⟩ => ⟨hk.symm, hk ▸ hr⟩⟩
  | delete key =>
    refine ⟨?_, h.consistent.delete key, fun k => ?_, fun k => ?_⟩
    · refine (notices_delete t key).trans ?_
      rw [h.entries, told, h.notices_listOf]
    · rw [listing_delete, ← h.entries, ← h.lists]
      exact listOf_delete t key k
    · refine Bool.eq_iff_iff.2 (contains_delete.trans ?_)
      rw [h.entries, alive, Bool.and_eq_true, bne_iff_ne, ne_comm]
  | subscribe key client =>
    cases hs : t.subscribe key client (listens client) with
    | error fault =>
      have heffect : (Happening.subscribe key client).effect listens t = .pure () t := by
        simp only [Happening.effect, hs]
      rw [heffect]
      have hr : route key = none := by
        unfold Table.subscribe at hs
        split at hs
        · assumption
        · cases hs
      refine ⟨rfl, h.consistent, fun k => ?_, h.entries⟩
      rw [listing_subscribe_of_not_routed hr]
      exact h.lists k
    | ok done =>
      obtain ⟨outcome, after⟩ := done
      have heffect : (Happening.subscribe key client).effect listens t = .pure () after := by
        simp only [Happening.effect, hs]
      rw [heffect]
      have hr : (route key).isSome = true := by
        unfold Table.subscribe at hs
        split at hs
        · cases hs
        · next i hi => rw [hi]; rfl
      refine ⟨rfl, h.consistent.subscribe hs, fun k => ?_, fun k => ?_⟩
      · rw [listing_subscribe hr, ← h.lists]
        refine (listOf_of_subscribe hs k).trans ?_
        split
        case isTrue hk => rw [hk]; rfl
        case isFalse => rfl
      · exact (contains_eq_of_entries (entries_of_subscribe hs) k).trans (h.entries k)
  | unsubscribe key client =>
    refine ⟨rfl, h.consistent.unsubscribe key client, fun k => ?_, fun k => ?_⟩
    · rw [listing_unsubscribe, ← h.lists]
      refine (listOf_unsubscribe t key client k).trans ?_
      split
      case isTrue hk => rw [hk]
      case isFalse => rfl
    · exact (contains_eq_of_entries (entries_unsubscribe t key client) k).trans (h.entries k)
  | leave client =>
    refine ⟨rfl, h.consistent.removeAll client, fun k => ?_, fun k => ?_⟩
    · rw [listing_leave, ← h.lists]
      exact listOf_removeAll h.consistent client k
    · exact (contains_eq_of_entries (entries_removeAll t client) k).trans (h.entries k)

/-- What happens in a row is told as the `news` of the history say, and the table follows; by
induction with `effect`. -/
theorem each (h : t.Follows listens past) (hs : List Happening) :
    (Effect.each (Happening.effect listens) hs t).notices = news listens past hs ∧
      (Effect.each (Happening.effect listens) hs t).state.Follows listens (hs.reverse ++ past) := by
  induction hs generalizing t past with
  | nil => exact ⟨rfl, h⟩
  | cons now rest ih =>
    obtain ⟨hnow, hafter⟩ := h.effect now
    obtain ⟨hrest, hend⟩ := ih hafter
    rw [Effect.each_cons, List.reverse_cons, List.append_assoc]
    exact ⟨by rw [hnow, hrest, news], hend⟩

end Table.Follows

/-! ## Actions -/

/-- What a job or a client does: a line of a job is read and executed, with the job and its output
as they are then (`Engine.execute`), or a client subscribes to a key, unsubscribes from it or
leaves. -/
inductive Action where
  | line (text : String) (job : Job.State) (out : Sink)
  | subscribe (key client : String)
  | unsubscribe (key client : String)
  | leave (client : String)

namespace Action

/-- The store after an action, by `Engine.execute`, `Engine.subscribe`, `Engine.unsubscribe` or
`Engine.removeAll`. -/
def perform (listens : String → ChannelId) (e : Engine) : Action → Engine
  | line text job out => (e.execute (.ofLine text) job out).engine
  | subscribe key client =>
    match e.subscribe key client (listens client) with
    | .ok (_, after) => after
    | .error _ => e
  | unsubscribe key client => (e.unsubscribe key client).2
  | leave client => (e.removeAll client).2

/-- The store after actions one after another (`Action.perform`). -/
def performAll (listens : String → ChannelId) (actions : List Action) (e : Engine) : Engine :=
  actions.foldl (perform listens) e

/-- The notices that the table sends on an action: those of a batch of writes or of deletions, if
the line is read as one. -/
def notices (t : Table) : Action → List Notice
  | line text _ _ =>
    match Job.Command.ofLine text with
    | .write pairs => (t.writeMany pairs).notices
    | .delete keys => (t.deleteMany keys).notices
    | _ => []
  | _ => []

/-- The notices that the table sends on actions one after another, each as the table is then
(`Action.perform`). -/
def attempts (listens : String → ChannelId) : List Action → Engine → List Notice
  | [], _ => []
  | a :: rest, e => a.notices e.table ++ attempts listens rest (a.perform listens e)

/-- What happens on an action, one after another: a batch is taken in the order of its keys
(`Table.inKeyOrder`). -/
def happenings : Action → List Happening
  | line text _ _ =>
    match Job.Command.ofLine text with
    | .write pairs => (Table.inKeyOrder (·.1) pairs).map fun pair => .write pair.1 pair.2
    | .delete keys => (Table.inKeyOrder id keys).map .delete
    | _ => []
  | subscribe key client => [.subscribe key client]
  | unsubscribe key client => [.unsubscribe key client]
  | leave client => [.leave client]

/-- The client that subscribes with an action, if it is a subscription. -/
def newcomer? : Action → Option String
  | subscribe _ client => some client
  | _ => none

/-! ## Actions as rows of happenings -/

variable {listens : String → ChannelId}

/-- To the table a batch of writes by `writeMany` is the row of single writes in the order of the
keys. -/
theorem writeMany_eq_each (t : Table) (pairs : List (String × String)) :
    let row := (Table.inKeyOrder (·.1) pairs).map fun pair => .write pair.1 pair.2
    (Effect.each (Happening.effect listens) row t).notices = (t.writeMany pairs).notices ∧
      (Effect.each (Happening.effect listens) row t).state = (t.writeMany pairs).state := by
  rw [Table.writeMany_eq_each]
  refine Effect.each_map_congr (f := Table.writePair) (fun _ _ => ?_) _ t
  exact ⟨rfl, rfl⟩

/-- To the table a batch of deletions by `deleteMany` is the row of single deletions in the order of
the keys. -/
theorem deleteMany_eq_each (t : Table) (keys : List String) :
    let row := (Table.inKeyOrder id keys).map .delete
    (Effect.each (Happening.effect listens) row t).notices = (t.deleteMany keys).notices ∧
      (Effect.each (Happening.effect listens) row t).state = (t.deleteMany keys).state := by
  rw [Table.deleteMany_eq_each]
  refine Effect.each_map_congr (f := Table.deleteKey) (fun _ _ => ?_) _ t
  exact ⟨rfl, rfl⟩

/-- The notices of an action are those of the row of its `happenings`. -/
theorem notices_eq_each (t : Table) (a : Action) :
    a.notices t = (Effect.each (Happening.effect listens) a.happenings t).notices := by
  cases a with
  | subscribe key client =>
    simp only [notices, happenings, Effect.each_cons, Effect.each_nil, Happening.effect]
    split <;> rfl
  | unsubscribe | leave => rfl
  | line text job out =>
    simp only [notices, happenings]
    split
    · exact (writeMany_eq_each t _).1.symm
    · exact (deleteMany_eq_each t _).1.symm
    · rfl

/-- An action changes the table as the row of its `happenings` does, and then its notices are
delivered by `Engine.deliver`. -/
theorem perform_eq_deliver (e : Engine) (a : Action) :
    ∃ e' : Engine, a.perform listens e = e'.deliver (a.notices e.table) ∧
      e'.table = (Effect.each (Happening.effect listens) a.happenings e.table).state ∧
      e'.channels = e.channels ∧ e'.sent = e.sent := by
  cases a with
  | unsubscribe key client => exact ⟨_, rfl, rfl, rfl, rfl⟩
  | leave client => exact ⟨_, rfl, rfl, rfl, rfl⟩
  | subscribe key client =>
    simp only [perform, happenings, Effect.each_cons, Effect.each_nil, Happening.effect]
    cases h : e.subscribe key client (listens client) with
    | error fault =>
      rw [Engine.subscribe_eq_error h]
      exact ⟨e, rfl, rfl, rfl, rfl⟩
    | ok done =>
      obtain ⟨table, ht, hafter⟩ := Engine.subscribe_eq_ok h
      rw [ht]
      exact ⟨done.2, rfl, by rw [hafter]; rfl, by rw [hafter]; rfl, by rw [hafter]; rfl⟩
  | line text job out =>
    simp only [perform, notices, happenings]
    cases Job.Command.ofLine text with
    | write pairs => exact ⟨_, rfl, (writeMany_eq_each e.table pairs).2.symm, rfl, rfl⟩
    | delete keys =>
      refine ⟨{ e with table := (e.table.deleteMany keys).state }, ?_,
        (deleteMany_eq_each e.table keys).2.symm, rfl, rfl⟩
      simp only [Engine.execute]
      split <;> rfl
    | wait delay =>
      refine ⟨e, ?_, rfl, rfl, rfl⟩
      cases delay with
      | zero => rfl
      | succ =>
        simp only [Engine.execute, Engine.announce]
        split <;> rfl
    | read | «show» | help | empty | invalid => exact ⟨_, rfl, rfl, rfl, rfl⟩
    | backup => exact ⟨_, rfl, rfl, rfl, rfl⟩

/-- The fields of the command on the line of an action, as `Job.Command.ofLine` reads it. -/
def fields : Action → List String
  | line text _ _ => (Job.Command.ofLine text).fields
  | _ => []

/-- What is told of an action is of `fields` of its line, but for the news of a deletion. -/
theorem mem_fields {past : History} {a : Action} {n : Notice}
    (h : n ∈ news listens past a.happenings) :
    n.notification.key ∈ a.fields ∧
      (n.notification.value ∈ a.fields ∨ n.notification.value = Notification.deletedValue) := by
  obtain ⟨-, hwhat⟩ := mem_news h
  cases a with
  | subscribe | unsubscribe | leave => simp [happenings] at hwhat
  | line text job out =>
    simp only [happenings, fields] at hwhat ⊢
    split at hwhat
    case h_1 pairs hline =>
      obtain ⟨key, value, hmem, hn⟩ := hwhat.resolve_right (by simp)
      obtain ⟨pair, hpair, hp⟩ := List.mem_map.1 hmem
      cases hp
      have hpair : pair ∈ pairs := List.mem_mergeSort.1 hpair
      rw [hline, hn]
      exact ⟨List.mem_flatMap.2 ⟨pair, hpair, by simp⟩,
        .inl (List.mem_flatMap.2 ⟨pair, hpair, by simp⟩)⟩
    case h_2 keys hline =>
      obtain ⟨key, hmem, hn⟩ := hwhat.resolve_left (by simp)
      obtain ⟨k, hk, hp⟩ := List.mem_map.1 hmem
      cases hp
      rw [hline, hn]
      exact ⟨List.mem_mergeSort.1 hk, .inr rfl⟩
    case h_3 => simp at hwhat

/-- What is told of an action has a frame (`Notice.emission?`): the fields of a command are no
longer than those of a frame. -/
theorem exists_emission {past : History} {a : Action} {n : Notice}
    (h : n ∈ news listens past a.happenings) : ∃ out, Except.ok out = n.emission? := by
  have hfields : ∀ field ∈ a.fields, field.utf8ByteSize ≤ maxTextSize := by
    cases a with
    | subscribe | unsubscribe | leave => exact nofun
    | line text job out => exact fun field hf => (Job.Command.isField_of_ofLine field hf).2.1
  obtain ⟨hkey, hvalue⟩ := mem_fields h
  refine Notice.exists_emission (hfields _ hkey) ?_
  rcases hvalue with hfield | hdeleted
  · exact hfields _ hfield
  · exact hdeleted ▸ Notification.size_deletedValue

end Action

/-! ## The law -/

open KeyWatch.Action

variable {listens : String → ChannelId}

/-- Only a subscription has one among its `happenings`, and no other. -/
theorem Action.eq_subscribe_of_mem_happenings {a : Action} {key client : String}
    (h : .subscribe key client ∈ a.happenings) : a = .subscribe key client := by
  cases a with
  | subscribe key' client' =>
    cases List.mem_singleton.1 h
    rfl
  | unsubscribe | leave => simp [happenings] at h
  | line text job out =>
    simp only [happenings] at h
    split at h <;> simp at h

/-- An action has no subscription among its `happenings` but that of its `newcomer?`. -/
theorem Action.eq_newcomer_of_mem_happenings {a : Action} {key client : String}
    (h : .subscribe key client ∈ a.happenings) : a.newcomer? = some client := by
  rw [eq_subscribe_of_mem_happenings h]
  rfl

/-- One action is told as the `news` of the history say, and frame by frame. The table goes on
following, and the channels that take everything go on taking it. -/
theorem Table.Follows.perform {a : Action} {past : History} {e : Engine}
    (h : e.table.Follows listens past)
    (hopen : ∀ key client, .subscribe key client ∈ a.happenings.reverse ++ past →
      e.channels.Willing (listens client)) :
    a.notices e.table = news listens past a.happenings ∧
      (a.perform listens e).table.Follows listens (a.happenings.reverse ++ past) ∧
      (∃ out, (news listens past a.happenings).map Notice.emission? = out.map .ok ∧
        (a.perform listens e).sent = e.sent ++ out) ∧
      ∀ id, e.channels.Willing id → (a.perform listens e).channels.Willing id := by
  obtain ⟨e', hperform, htable, hchannels, hsent⟩ : ∃ e' : Engine, a.perform listens e = _ ∧ _ :=
    perform_eq_deliver e a
  obtain ⟨htold, hfollows⟩ := h.each a.happenings
  rw [← notices_eq_each] at htold
  have hwilling : ∀ n ∈ a.notices e.table, e'.channels.Willing n.channel := by
    intro n hn
    rw [htold] at hn
    obtain ⟨⟨key, client, hmem, hchannel⟩, -⟩ := mem_news hn
    rw [hchannels, hchannel]
    exact hopen key client hmem
  obtain ⟨out, hout⟩ : (a.notices e.table).map Notice.emission? ∈ Set.range (List.map .ok) := by
    rw [Set.range_list_map]
    intro m hm
    obtain ⟨n, hn, rfl⟩ := List.mem_map.1 hm
    exact exists_emission (htold ▸ hn)
  obtain ⟨hdelivered, hkeep⟩ := Engine.sent_deliver hwilling hout.symm
  rw [← hperform, hsent] at hdelivered
  rw [← hperform, hchannels] at hkeep
  refine ⟨htold, ?_, ⟨out, htold ▸ hout.symm, hdelivered⟩, hkeep⟩
  rw [hperform, Engine.table_deliver, htable]
  exact hfollows

/-- From a table that follows the history on, what the table sends is the `news`, and it leaves the
store frame by frame; by induction on the actions. -/
theorem Table.Follows.performAll {actions : List Action} {past : History} {e : Engine}
    (h : e.table.Follows listens past)
    (hpast : ∀ key client, .subscribe key client ∈ past → e.channels.Willing (listens client))
    (hopen : ∀ a ∈ actions, ∀ client, a.newcomer? = some client →
      e.channels.Willing (listens client)) :
    attempts listens actions e = news listens past (actions.flatMap happenings) ∧
      ∃ out, (news listens past (actions.flatMap happenings)).map Notice.emission? =
          out.map .ok ∧
        (Action.performAll listens actions e).sent = e.sent ++ out := by
  induction actions generalizing past e with
  | nil => exact ⟨rfl, [], rfl, (List.append_nil _).symm⟩
  | cons a rest ih =>
    have hsubscribed : ∀ key client, .subscribe key client ∈ a.happenings.reverse ++ past →
        e.channels.Willing (listens client) := by
      intro key client hmem
      rcases List.mem_append.1 hmem with hnow | hbefore
      · exact hopen a List.mem_cons_self client
          (eq_newcomer_of_mem_happenings (List.mem_reverse.1 hnow))
      · exact hpast key client hbefore
    obtain ⟨htold, hfollows, ⟨out, hout, hsent⟩, hkeep⟩ := h.perform hsubscribed
    obtain ⟨hmore, more, hmout, hmsent⟩ := ih hfollows
      (fun key client hmem => hkeep _ (hsubscribed key client hmem))
      fun b hb client hc => hkeep _ (hopen b (List.mem_cons_of_mem a hb) client hc)
    rw [List.flatMap_cons, news_append]
    refine ⟨?_, out ++ more, ?_, ?_⟩
    · rw [attempts, htold, hmore]
    · rw [List.map_append, List.map_append, hout, hmout]
    · rw [Action.performAll, List.foldl_cons]
      exact hmsent.trans (by rw [hsent, List.append_assoc])

/-- Whatever jobs and clients do to an empty table, what leaves the store is the `news`, each with
its frame, in order and nothing else: every write of a key that has a bucket and every deletion that
finds an entry, told to those who watch the key then. The channels on which clients subscribe are
willing. -/
theorem sent_performAll {actions : List Action} {e : Engine}
    (hopen : ∀ a ∈ actions, ∀ client, a.newcomer? = some client →
      e.channels.Willing (listens client)) :
    attempts listens actions { e with table := .empty } =
        news listens [] (actions.flatMap happenings) ∧
      ∃ out, (news listens [] (actions.flatMap happenings)).map Notice.emission? = out.map .ok ∧
        (performAll listens actions { e with table := .empty }).sent = e.sent ++ out :=
  Table.Follows.performAll (.empty listens) (fun _ _ => nofun) hopen

/-- Two clients that watch a key: the one who came first leaves between the writes and the deletion,
and comes again. -/
def comingAndGoing : List Action :=
  let job := Job.State.start "job" (.ofString "work")
  [.subscribe "k" "b", .subscribe "k" "a", .line "WRITE [(k,v)(j,u)(k,w)]" job {},
    .leave "b", .subscribe "k" "b", .line "DELETE [k]" job {}, .line "DELETE [k]" job {}]

/-- A store with two channels that take everything (`Channels.Willing`), the first in small
pieces. -/
def twoChannels : Engine :=
  { Engine.ofFiles 1 .bare with
    channels := ⟨[some { script := [.accept 5, .accept 1] }, some {}]⟩ }

/-- The channel of one client is the first, and that of all others is the second, both of
`twoChannels`. -/
def firstOrSecond (client : String) : ChannelId := if client = "a" then 0 else 1

/-- What happens in `comingAndGoing`: the writes of the batch in the order of their keys. -/
theorem happenings_comingAndGoing :
    comingAndGoing.flatMap happenings =
      [.subscribe "k" "b", .subscribe "k" "a", .write "j" "u", .write "k" "v", .write "k" "w",
        .leave "b", .subscribe "k" "b", .delete "k", .delete "k"] := by
  have hwrite : Job.Command.ofLine "WRITE [(k,v)(j,u)(k,w)]" =
      .write [("k", "v"), ("j", "u"), ("k", "w")] := by decide +kernel
  have hdelete : Job.Command.ofLine "DELETE [k]" = .delete ["k"] := by decide +kernel
  have hsorted : Table.inKeyOrder (·.1) [("k", "v"), ("j", "u"), ("k", "w")] =
      [("j", "u"), ("k", "v"), ("k", "w")] := by
    simp [Table.inKeyOrder, List.mergeSort]
  have hsingle : Table.inKeyOrder id ["k"] = ["k"] := List.mergeSort_singleton _
  simp [comingAndGoing, happenings, hwrite, hdelete, hsorted, hsingle]

/-- The writes of a batch are told in the order of their keys and the first deletion only, the
client that left and came again last. -/
theorem sent_performAll_comingAndGoing :
    (∀ a ∈ comingAndGoing, ∀ client, a.newcomer? = some client →
        twoChannels.channels.Willing (firstOrSecond client)) ∧
      news firstOrSecond [] (comingAndGoing.flatMap happenings) =
        [⟨1, ⟨"k", "v"⟩⟩, ⟨0, ⟨"k", "v"⟩⟩, ⟨1, ⟨"k", "w"⟩⟩, ⟨0, ⟨"k", "w"⟩⟩, ⟨0, .deleted "k"⟩,
          ⟨1, .deleted "k"⟩] ∧
      attempts firstOrSecond comingAndGoing { twoChannels with table := .empty } =
        news firstOrSecond [] (comingAndGoing.flatMap happenings) ∧
      ∃ out,
        (news firstOrSecond [] (comingAndGoing.flatMap happenings)).map Notice.emission? =
          out.map .ok ∧
        (performAll firstOrSecond comingAndGoing { twoChannels with table := .empty }).sent =
          twoChannels.sent ++ out := by
  have hopen : ∀ a ∈ comingAndGoing, ∀ client, a.newcomer? = some client →
      twoChannels.channels.Willing (firstOrSecond client) := by
    intro a _ client _
    unfold firstOrSecond
    split
    · refine ⟨_, rfl, ?_, rfl, rfl, rfl⟩
      intro allowance hmem
      rcases List.mem_pair.1 hmem with rfl | rfl
      · exact Nat.succ_pos 4
      · exact Nat.succ_pos 0
    · exact ⟨_, rfl, nofun, rfl, rfl, rfl⟩
  refine ⟨hopen, ?_, sent_performAll hopen⟩
  rw [happenings_comingAndGoing]
  decide +kernel

end KeyWatch
