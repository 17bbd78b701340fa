import KeyWatch.Table.Effect

/-!
# Subscribers of a key

A subscriber is a client's standing wish to hear of one key, with the channel on which it listens.
The subscribers of a key stand in the order in which they came. A client that comes again keeps its
place and changes its channel, so no client stands in a list twice (`SubscriberList.add`).
-/

namespace KeyWatch

/-- A client that watches a key, and the channel on which it listens. -/
structure Subscriber where
  client : String
  channel : ChannelId
  deriving DecidableEq, Repr

/-- The subscribers of a key, in the order in which they came. That no client stands in it twice is
kept by `SubscriberList.add` (`nodup_clients_add`). -/
structure SubscriberList where
  subscribers : List Subscriber
  deriving DecidableEq, Repr

namespace SubscriberList

/-- The list without subscribers, which a key has that nobody watches. -/
def empty : SubscriberList := ⟨[]⟩

/-- The number of subscribers. Operation: `len`. -/
def size (l : SubscriberList) : Nat := l.subscribers.length

/-- Whether there are no subscribers. Operation: `is_empty`. -/
def isEmpty (l : SubscriberList) : Bool := l.subscribers.isEmpty

/-- The ids of the subscribers, in the order of the list. Operation: `client_ids`. -/
def clients (l : SubscriberList) : List String := l.subscribers.map Subscriber.client

/-- The channels on which the subscribers listen, in the order of the list. -/
def channels (l : SubscriberList) : List ChannelId := l.subscribers.map Subscriber.channel

/-- The channel on which a client listens, or `none` if it is not in the list. -/
def channelOf? (l : SubscriberList) (client : String) : Option ChannelId :=
  (l.subscribers.find? (·.client == client)).map Subscriber.channel

/-- Whether a client is among the subscribers. Operation: `contains`. -/
def contains (l : SubscriberList) (client : String) : Bool :=
  l.subscribers.any (·.client == client)

/-- The list with a subscriber, in its client's place if it has one, and else at the end. Operation:
`add`. -/
def add (l : SubscriberList) (s : Subscriber) : SubscriberList :=
  if l.contains s.client then
    ⟨l.subscribers.map fun old => if old.client = s.client then s else old⟩
  else ⟨l.subscribers ++ [s]⟩

/-- The list without a client; the others keep their order. Operation: `remove`. -/
def remove (l : SubscriberList) (client : String) : SubscriberList :=
  ⟨l.subscribers.filter (·.client != client)⟩

/-- The notices that tell every subscriber a notification, in the order of the list. Their delivery
is `Channels.deliver`. Operation: `notify`. -/
def notices (l : SubscriberList) (n : Notification) : List Notice :=
  l.subscribers.map fun s => ⟨s.channel, n⟩

/-! ## Who is in a list -/

/-- The list `contains` the clients whose ids stand in it. -/
theorem contains_iff {l : SubscriberList} {client : String} :
    l.contains client = true ↔ client ∈ l.clients := by
  simp [contains, clients]

/-- A client that comes again by `add` keeps its place among the `clients`, and a new one comes
last. -/
theorem clients_add (l : SubscriberList) (s : Subscriber) :
    (l.add s).clients = if s.client ∈ l.clients then l.clients else l.clients ++ [s.client] := by
  unfold add
  by_cases h : s.client ∈ l.clients
  · rw [if_pos (contains_iff.2 h), if_pos h]
    simp only [clients, List.map_map]
    refine List.map_congr_left fun old _ => ?_
    simp only [Function.comp_apply]
    split
    case isTrue he => exact he.symm
    case isFalse => rfl
  · rw [if_neg (fun hc => h (contains_iff.1 hc)), if_neg h]
    simp [clients]

/-- No client stands in a list twice behind an `add`, if none did before. -/
theorem nodup_clients_add {l : SubscriberList} (h : l.clients.Nodup) (s : Subscriber) :
    (l.add s).clients.Nodup := by
  rw [clients_add]
  split
  case isTrue => exact h
  case isFalse hs =>
    refine List.nodup_append.2 ⟨h, by simp, ?_⟩
    rintro c hmem _ (_ | ⟨_, ⟨⟩⟩) rfl
    exact hs hmem

/-- To `add` a subscriber that is in the list, and is the only one of its client, changes
nothing. -/
theorem add_eq_self {l : SubscriberList} {s : Subscriber} (hs : s ∈ l.subscribers)
    (hall : ∀ old ∈ l.subscribers, old.client = s.client → old = s) : l.add s = l := by
  rw [add, if_pos (contains_iff.2 (List.mem_map_of_mem hs))]
  congr 1
  refine (List.map_congr_left fun old hold => ?_).trans (List.map_id' _)
  split
  case isTrue he => exact (hall old hold he).symm
  case isFalse => rfl

/-- The `clients` behind a `remove` are those of before without the one removed, in the same
order. -/
theorem clients_remove (l : SubscriberList) (client : String) :
    (l.remove client).clients = l.clients.filter (· != client) := by
  simp only [clients, remove, List.filter_map]
  rfl

/-- No client stands in a list twice behind a `remove`, if none did before. -/
theorem nodup_clients_remove {l : SubscriberList} (h : l.clients.Nodup) (client : String) :
    (l.remove client).clients.Nodup := by
  rw [clients_remove]
  exact h.filter _

/-- Behind a `remove` every client but the one removed is in the list if it was. -/
@[simp] theorem mem_clients_remove {l : SubscriberList} {client other : String} :
    other ∈ (l.remove client).clients ↔ other ∈ l.clients ∧ other ≠ client := by
  simp [clients_remove]

/-- To `remove` a client that is not in the list changes nothing. -/
theorem remove_eq_self {l : SubscriberList} {client : String} (h : client ∉ l.clients) :
    l.remove client = l := by
  unfold remove
  congr 1
  refine List.filter_eq_self.2 fun s hs => ?_
  have hne : s.client ≠ client := fun he => h (he ▸ List.mem_map_of_mem hs)
  simpa using hne

/-- To `remove` a client twice is to remove it once. -/
@[simp] theorem remove_remove (l : SubscriberList) (client : String) :
    (l.remove client).remove client = l.remove client := by
  simp [remove, List.filter_filter]

/-- A subscriber that was added cannot be told from the list without its client: `add` before
`remove` of the same client makes no difference. -/
theorem remove_add (l : SubscriberList) (s : Subscriber) :
    (l.add s).remove s.client = l.remove s.client := by
  obtain ⟨l⟩ := l
  unfold add
  split
  case isFalse => simp [remove]
  case isTrue h =>
    clear h
    simp only [remove]
    congr 1
    induction l with
    | nil => rfl
    | cons old rest ih =>
      rw [List.map_cons]
      by_cases he : old.client = s.client
      · simpa [he] using ih
      · simpa [he] using ih

/-- To `add` a subscriber and to `remove` another client can be done in any order. -/
theorem remove_add_of_ne (l : SubscriberList) {s : Subscriber} {client : String}
    (h : s.client ≠ client) : (l.add s).remove client = (l.remove client).add s := by
  have hmem : s.client ∈ (l.remove client).clients ↔ s.client ∈ l.clients := by
    rw [mem_clients_remove, and_iff_left h]
  unfold add
  rcases Decidable.em (s.client ∈ l.clients) with hs | hs
  · rw [if_pos (contains_iff.2 hs), if_pos (contains_iff.2 (hmem.2 hs))]
    simp only [remove, List.filter_map]
    congr 2
    refine List.filter_congr fun old _ => ?_
    simp only [Function.comp_apply]
    split
    case isTrue he => rw [he]
    case isFalse => rfl
  · rw [if_neg (fun hc => hs (contains_iff.1 hc)),
      if_neg (fun hc => hs (hmem.1 (contains_iff.1 hc)))]
    simp [remove, h]

/-- Two clients can be removed in any order. -/
theorem remove_comm (l : SubscriberList) (client other : String) :
    (l.remove client).remove other = (l.remove other).remove client := by
  simp only [remove, List.filter_filter, Bool.and_comm]

/-- In a list behind `add` stand the subscriber that was added and others that were there before. -/
theorem mem_add {l : SubscriberList} {s other : Subscriber}
    (h : other ∈ (l.add s).subscribers) : other = s ∨ other ∈ l.subscribers := by
  unfold add at h
  split at h
  case isTrue =>
    obtain ⟨old, hold, hmap⟩ := List.mem_map.1 h
    split at hmap
    case isTrue => exact .inl hmap.symm
    case isFalse => exact .inr (hmap ▸ hold)
  case isFalse =>
    rcases List.mem_append.1 h with hold | hnew
    · exact .inr hold
    · exact .inl (List.mem_singleton.1 hnew)

/-- A list is empty by `isEmpty` if and only if it is the `empty` list. -/
theorem isEmpty_iff {l : SubscriberList} : l.isEmpty = true ↔ l = .empty := by
  obtain ⟨l⟩ := l
  simp [isEmpty, empty]

end SubscriberList

end KeyWatch
