import Mathlib.Data.List.Basic
import KeyWatch.Table.Effect
import KeyWatch.Table.Route
import KeyWatch.Table.Subscriber

/-!
# What the history of a store says

A history is what was done to keys and subscriptions, the latest first. It alone says which keys
have entries (`History.alive`), who watches a key (`History.watching`) and since when
(`History.since`), and so who is told of what comes next, in which order (`History.told`). Nothing
here speaks of tables. `History.watchers_cons` says how the watchers of a key change with what
happens: some leave, the others keep their places, and a newcomer comes last.
-/

namespace KeyWatch

/-- Something that is done to a key or to subscriptions by a job or a client. -/
inductive Happening where
  | write (key value : String)
  | delete (key : String)
  | subscribe (key client : String)
  | unsubscribe (key client : String)
  | leave (client : String)
  deriving DecidableEq, Repr

/-- What has happened (`Happening`), the latest first. -/
abbrev History := List Happening

namespace History

/-- Whether a key has an entry by the history: its latest write or deletion is a write. A key
without bucket (`route`) has none. -/
def alive (key : String) : History → Bool
  | [] => false
  | .write k _ :: past => (k == key && (route key).isSome) || alive key past
  | .delete k :: past => k != key && alive key past
  | _ :: past => alive key past

/-- Whether a client watches a key: of its subscriptions to the key, their ends, its leavings and
the deletions of the key that found an entry (`alive`), the latest is a subscription. A key without
bucket is not watched. -/
def watching (key client : String) : History → Bool
  | [] => false
  | .subscribe k c :: past =>
    (k == key && c == client && (route key).isSome) || watching key client past
  | .unsubscribe k c :: past => !(k == key && c == client) && watching key client past
  | .leave c :: past => c != client && watching key client past
  | .delete k :: past => !(k == key && alive key past) && watching key client past
  | .write _ _ :: past => watching key client past

/-- The moment since when a client watches a key, if it does (`watching`): the first thing to happen
since the client last did not watch it. Moments are counted from the beginning. -/
def since (key client : String) : History → Nat
  | [] => 0
  | _ :: past => if watching key client past then since key client past else past.length

/-- The client that begins to watch a key at a moment (`since`) and watches it to this day, if there
is one. -/
def watcherAt (key : String) (past : History) : Happening × Nat → Option String
  | (.subscribe k c, moment) =>
    if k = key ∧ watching key c past = true ∧ since key c past = moment then some c else none
  | _ => none

/-- Those who watch a key, in the order of the moments since when they do (`watcherAt`). -/
def watchers (key : String) (past : History) : List String :=
  past.reverse.zipIdx.filterMap (watcherAt key past)

/-- Who is told of something that happens, and what, if every client listens on one channel: the
`watchers` of a key are told of every write of it and of every deletion that finds an entry. -/
def told (listens : String → ChannelId) (past : History) : Happening → List Notice
  | .write key value => (watchers key past).map fun c => ⟨listens c, ⟨key, value⟩⟩
  | .delete key =>
    if alive key past then (watchers key past).map fun c => ⟨listens c, .deleted key⟩ else []
  | _ => []

/-- All that is `told` when things happen one after another, the earliest first. -/
def news (listens : String → ChannelId) : History → List Happening → List Notice
  | _, [] => []
  | past, h :: rest => told listens past h ++ news listens (h :: past) rest

/-! ## How the watchers change -/

/-- The client that something makes a watcher of a key: one that subscribes to it, did not watch it,
and finds a bucket for it. -/
def newcomers (key : String) (past : History) : Happening → List String
  | .subscribe k c =>
    if k = key ∧ (route key).isSome = true ∧ watching key c past = false then [c] else []
  | _ => []

/-- A client that is `watching` a key now and was not before has just subscribed to it, and the key
has a bucket. -/
theorem eq_subscribe_of_watching {key client : String} {h : Happening} {past : History}
    (hnow : watching key client (h :: past) = true) (hbefore : watching key client past = false) :
    h = .subscribe key client ∧ (route key).isSome = true := by
  cases h with
  | subscribe k c =>
    simp only [watching, hbefore, Bool.or_false, Bool.and_eq_true, beq_iff_eq] at hnow
    obtain ⟨⟨rfl, rfl⟩, hr⟩ := hnow
    exact ⟨rfl, hr⟩
  | write | delete | unsubscribe | leave => simp [watching, hbefore] at hnow

/-- The moment `since` when a client watches a key is one of the history. -/
theorem since_lt {key client : String} {past : History} (h : watching key client past = true) :
    since key client past < past.length := by
  induction past with
  | nil => cases h
  | cons h' past ih =>
    rw [since, List.length_cons]
    split
    case isTrue hbefore => exact Nat.lt_succ_of_lt (ih hbefore)
    case isFalse => exact Nat.lt_succ_self _

/-- At an earlier moment began those who watch still and did so before: `watcherAt` loses who does
not watch after what happens, and gains nobody. -/
theorem watcherAt_cons (key : String) (h h' : Happening) {past : History} {moment : Nat}
    (hm : moment < past.length) :
    watcherAt key (h :: past) (h', moment) =
      (watcherAt key past (h', moment)).filter (watching key · (h :: past)) := by
  cases h' with
  | write | delete | unsubscribe | leave => rfl
  | subscribe k c =>
    simp only [watcherAt, since]
    by_cases hbefore : watching key c past = true
    · simp only [hbefore, if_true, true_and]
      by_cases hs : k = key ∧ since key c past = moment
      · by_cases hnow : watching key c (h :: past) = true <;> simp [hs, hnow, Option.filter]
      · rw [if_neg fun hc => hs ⟨hc.1, hc.2.2⟩, if_neg hs]
        rfl
    · have hlate : past.length ≠ moment := Nat.ne_of_gt hm
      simp [hbefore, hlate]

/-- At the last moment begins to watch whom `newcomers` names, and nobody else. -/
theorem toList_watcherAt (key : String) (h : Happening) (past : History) :
    (watcherAt key (h :: past) (h, past.length)).toList = newcomers key past h := by
  cases h with
  | write | delete | unsubscribe | leave => rfl
  | subscribe k c =>
    simp only [watcherAt, newcomers, since]
    by_cases hk : k = key
    · subst hk
      by_cases hbefore : watching k c past = true
      · simp [hbefore, Nat.ne_of_lt (since_lt hbefore)]
      · by_cases hr : (route k).isSome = true <;> simp [watching, hbefore, hr]
    · simp [hk]

/-- Of the `watchers` of a key those stay who watch still, in their places, and a newcomer comes
last. -/
theorem watchers_cons (key : String) (h : Happening) (past : History) :
    watchers key (h :: past) =
      (watchers key past).filter (watching key · (h :: past)) ++ newcomers key past h := by
  unfold watchers
  rw [List.reverse_cons, List.zipIdx_append, List.filterMap_append, List.filter_filterMap]
  congr 1
  · refine List.filterMap_congr fun p hp => ?_
    have hm := (List.mem_zipIdx' hp).1
    rw [List.length_reverse] at hm
    exact watcherAt_cons key h p.1 hm
  · rw [← toList_watcherAt]
    simp only [List.length_reverse, Nat.zero_add, List.zipIdx_cons, List.zipIdx_nil,
      List.filterMap_cons, List.filterMap_nil]
    cases watcherAt key (h :: past) (h, past.length) <;> rfl

/-- The `watchers` of a key are those who are `watching` it. -/
theorem mem_watchers {key client : String} {past : History} :
    client ∈ watchers key past ↔ watching key client past = true := by
  induction past with
  | nil => exact ⟨nofun, nofun⟩
  | cons h past ih =>
    rw [watchers_cons, List.mem_append, List.mem_filter, ih]
    constructor
    · rintro (⟨-, hnow⟩ | hnew)
      · exact hnow
      · cases h with
        | write | delete | unsubscribe | leave => cases hnew
        | subscribe k c =>
          simp only [newcomers] at hnew
          split at hnew
          case isFalse => cases hnew
          case isTrue hk =>
            obtain rfl := List.mem_singleton.1 hnew
            simp [watching, hk.1, hk.2.1]
    · intro hnow
      cases hbefore : watching key client past with
      | true => exact .inl ⟨rfl, hnow⟩
      | false =>
        obtain ⟨rfl, hr⟩ := eq_subscribe_of_watching hnow hbefore
        refine .inr ?_
        simp [newcomers, hr, hbefore]

/-- What makes no watcher leaves those of the `watchers` in their places who go on watching. -/
theorem watchers_cons_of_newcomers {key : String} {h : Happening} {past : History}
    (hnew : newcomers key past h = []) {stay : String → Bool}
    (hstay : ∀ c, watching key c past = true → watching key c (h :: past) = stay c) :
    watchers key (h :: past) = (watchers key past).filter stay := by
  rw [watchers_cons, hnew, List.append_nil]
  exact List.filter_congr fun c hc => hstay c (mem_watchers.1 hc)

/-! ## What is told -/

/-- A client that is `watching` a key has subscribed to it at some time. -/
theorem mem_of_watching {key client : String} {past : History}
    (h : watching key client past = true) : .subscribe key client ∈ past := by
  induction past with
  | nil => cases h
  | cons now past ih =>
    cases hbefore : watching key client past with
    | true => exact List.mem_cons_of_mem now (ih hbefore)
    | false =>
      obtain ⟨rfl, -⟩ := eq_subscribe_of_watching h hbefore
      exact List.mem_cons_self

/-- What is `told` is a write or a deletion that happens now, and it is told on the channel of a
client that subscribed. -/
theorem mem_told {listens : String → ChannelId} {past : History} {now : Happening} {n : Notice}
    (h : n ∈ told listens past now) :
    (∃ key client, .subscribe key client ∈ past ∧ n.channel = listens client) ∧
      ((∃ key value, now = .write key value ∧ n.notification = ⟨key, value⟩) ∨
        ∃ key, now = .delete key ∧ n.notification = .deleted key) := by
  cases now with
  | subscribe | unsubscribe | leave => cases h
  | write key value =>
    obtain ⟨c, hc, rfl⟩ := List.mem_map.1 h
    exact ⟨⟨key, c, mem_of_watching (mem_watchers.1 hc), rfl⟩, .inl ⟨key, value, rfl, rfl⟩⟩
  | delete key =>
    simp only [told] at h
    split at h
    case isFalse => cases h
    case isTrue =>
      obtain ⟨c, hc, rfl⟩ := List.mem_map.1 h
      exact ⟨⟨key, c, mem_of_watching (mem_watchers.1 hc), rfl⟩, .inr ⟨key, rfl, rfl⟩⟩

/-- What is `told` on a way is a write or a deletion of the way, and it is told on the channel of a
client that subscribed on the way or before. -/
theorem mem_news {listens : String → ChannelId} {past : History} {hs : List Happening} {n : Notice}
    (h : n ∈ news listens past hs) :
    (∃ key client, .subscribe key client ∈ hs.reverse ++ past ∧ n.channel = listens client) ∧
      ((∃ key value, .write key value ∈ hs ∧ n.notification = ⟨key, value⟩) ∨
        ∃ key, .delete key ∈ hs ∧ n.notification = .deleted key) := by
  induction hs generalizing past with
  | nil => cases h
  | cons now rest ih =>
    rw [List.reverse_cons, List.append_assoc]
    rcases List.mem_append.1 h with hnow | hlater
    · obtain ⟨⟨key, c, hc, hn⟩, hwhat⟩ := mem_told hnow
      refine ⟨⟨key, c, List.mem_append_right _ (List.mem_append_right _ hc), hn⟩, ?_⟩
      rcases hwhat with ⟨k, v, rfl, hv⟩ | ⟨k, rfl, hv⟩
      · exact .inl ⟨k, v, List.mem_cons_self, hv⟩
      · exact .inr ⟨k, List.mem_cons_self, hv⟩
    · obtain ⟨hwho, hwhat⟩ := ih hlater
      refine ⟨hwho, ?_⟩
      rcases hwhat with ⟨k, v, hk, hv⟩ | ⟨k, hk, hv⟩
      · exact .inl ⟨k, v, List.mem_cons_of_mem now hk, hv⟩
      · exact .inr ⟨k, List.mem_cons_of_mem now hk, hv⟩

/-- The `news` of a way are those of its first part and then those of its second. -/
theorem news_append (listens : String → ChannelId) (past : History) (l r : List Happening) :
    news listens past (l ++ r) = news listens past l ++ news listens (l.reverse ++ past) r := by
  induction l generalizing past with
  | nil => rfl
  | cons now rest ih =>
    rw [List.cons_append, news, ih, news, List.reverse_cons, List.append_assoc, List.append_assoc]
    rfl

/-! ## The list of the watchers of a key -/

/-- A client as a `Subscriber`, on the channel on which it listens. -/
def listener (listens : String → ChannelId) (client : String) : Subscriber :=
  ⟨client, listens client⟩

/-- The `watchers` of a key as a list of subscribers, each on its channel. -/
def listing (listens : String → ChannelId) (key : String) (past : History) : SubscriberList :=
  ⟨(watchers key past).map (listener listens)⟩

variable {listens : String → ChannelId}

/-- The clients of a `listing` are the watchers of its key. -/
@[simp] theorem clients_listing (key : String) (past : History) :
    (listing listens key past).clients = watchers key past := by
  simp [listing, SubscriberList.clients, listener, Function.comp_def]

/-- The `listing` of a key stays as it is if nobody begins to watch the key and nobody ceases to. -/
theorem listing_cons_self {key : String} {h : Happening} {past : History}
    (hnew : newcomers key past h = [])
    (hstay : ∀ c, watching key c past = true → watching key c (h :: past) = true) :
    listing listens key (h :: past) = listing listens key past := by
  rw [listing, watchers_cons_of_newcomers hnew hstay, List.filter_eq_self.2 fun _ _ => rfl]
  rfl

/-- The `listing` of a key loses one client if nobody begins to watch the key and only that one
ceases to. -/
theorem listing_cons_remove {key client : String} {h : Happening} {past : History}
    (hnew : newcomers key past h = [])
    (hstay : ∀ c, watching key c past = true → watching key c (h :: past) = (c != client)) :
    listing listens key (h :: past) = (listing listens key past).remove client := by
  rw [listing, watchers_cons_of_newcomers hnew hstay, SubscriberList.remove, listing]
  simp only [List.filter_map]
  rfl

/-- A write leaves every `listing` as it is. -/
theorem listing_write (key k value : String) (past : History) :
    listing listens key (.write k value :: past) = listing listens key past :=
  listing_cons_self rfl fun _ h => h

/-- A client that leaves is removed from every `listing`, as by `SubscriberList.remove`. -/
theorem listing_leave (key client : String) (past : History) :
    listing listens key (.leave client :: past) = (listing listens key past).remove client :=
  listing_cons_remove rfl fun c h => by
    rw [watching, h, Bool.and_true, bne_comm]

/-- A client that unsubscribes is removed from the `listing` of the key and from no other. -/
theorem listing_unsubscribe (key k client : String) (past : History) :
    listing listens key (.unsubscribe k client :: past) =
      if key = k then (listing listens key past).remove client else listing listens key past := by
  split
  case isTrue hk =>
    subst hk
    refine listing_cons_remove rfl fun c h => ?_
    rw [watching, h, Bool.and_true, BEq.rfl, Bool.true_and, ← bne, bne_comm]
  case isFalse hk =>
    refine listing_cons_self rfl fun c h => ?_
    rw [watching, h, beq_eq_false_iff_ne.2 (Ne.symm hk)]
    rfl

/-- A deletion that finds an entry (`alive`) empties the `listing` of the key; any other changes
nothing. -/
theorem listing_delete (key k : String) (past : History) :
    listing listens key (.delete k :: past) =
      if alive k past = true ∧ key = k then .empty else listing listens key past := by
  split
  case isTrue hk =>
    obtain ⟨halive, rfl⟩ := hk
    have hgone : watchers key (.delete key :: past) = (watchers key past).filter fun _ => false :=
      watchers_cons_of_newcomers rfl fun c _ => by simp [watching, halive]
    rw [listing, hgone, List.filter_false]
    rfl
  case isFalse hk =>
    refine listing_cons_self rfl fun c h => ?_
    have hspared : (k == key && alive key past) = false := by
      rw [Bool.and_eq_false_iff]
      by_cases hkey : key = k
      · exact .inr (by simpa [hkey] using hk)
      · exact .inl (beq_eq_false_iff_ne.2 (Ne.symm hkey))
    rw [watching, hspared, h]
    rfl

/-- A client that subscribes to a key that has a bucket stands in the `listing` of the key as after
`SubscriberList.add`. -/
theorem listing_subscribe {k : String} (hr : (route k).isSome = true) (key client : String)
    (past : History) :
    listing listens key (.subscribe k client :: past) =
      if key = k then (listing listens key past).add (listener listens client)
      else listing listens key past := by
  have hstay : ∀ c, watching key c past = true →
      watching key c (.subscribe k client :: past) = true := by
    intro c h
    rw [watching, h, Bool.or_true]
  by_cases hk : key = k
  · subst hk
    rw [if_pos rfl]
    by_cases hbefore : watching key client past = true
    · have hnew : newcomers key past (.subscribe key client) = [] := by
        simp [newcomers, hbefore]
      rw [listing_cons_self hnew hstay]
      refine (SubscriberList.add_eq_self ?_ ?_).symm
      · exact List.mem_map_of_mem (mem_watchers.2 hbefore)
      · intro old hold heq
        obtain ⟨c, -, rfl⟩ := List.mem_map.1 hold
        exact congrArg (listener listens) heq
    · have hnew : newcomers key past (.subscribe key client) = [client] := by
        simp [newcomers, hbefore, hr]
      have hall : (watchers key past).filter (watching key · (.subscribe key client :: past)) =
          watchers key past :=
        List.filter_eq_self.2 fun c hc => hstay c (mem_watchers.1 hc)
      have habsent :
          ¬(listing listens key past).contains (listener listens client).client = true := by
        rw [SubscriberList.contains_iff, clients_listing, mem_watchers]
        exact hbefore
      rw [listing, watchers_cons, hall, hnew, SubscriberList.add, if_neg habsent, List.map_append]
      rfl
  · rw [if_neg hk]
    refine listing_cons_self ?_ hstay
    rw [newcomers, if_neg fun h => hk h.1.symm]

/-- A subscription to a key without bucket changes no `listing`. -/
theorem listing_subscribe_of_not_routed {k : String} (hr : route k = none) (key client : String)
    (past : History) :
    listing listens key (.subscribe k client :: past) = listing listens key past := by
  refine listing_cons_self ?_ fun c h => ?_
  · rw [newcomers, if_neg]
    rintro ⟨rfl, hroute, -⟩
    rw [hr] at hroute
    cases hroute
  · rw [watching, h, Bool.or_true]

end History

end KeyWatch
