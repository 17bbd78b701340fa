import KeyWatch.OrderedMap
import KeyWatch.Table.Subscriber

/-!
# Buckets

A bucket holds entries in the order in which their keys came, and the subscribers of keys, be there
an entry or not. Writing a key tells its subscribers the value. Deleting an entry tells them too and
then drops them all; the clients dropped are part of the result, so that whoever keeps a record of
them can follow (`Bucket.remove`). A list of subscribers that becomes empty is dropped.
-/

namespace KeyWatch

/-- A key and its value, as a bucket holds them and a snapshot lists them. -/
structure Entry where
  key : String
  value : String
  deriving DecidableEq, Repr

/-- How the writing of a pair went (`Table.write`): the key is new, it had a value before, or it has
no bucket. -/
inductive WriteOutcome where
  | inserted
  | updated
  | rejected
  deriving DecidableEq, Repr

/-- How the deletion of a key went (`Table.delete`): its entry is gone, or it had none. -/
inductive DeleteOutcome where
  | deleted
  | missing
  deriving DecidableEq, Repr

/-- Some entries, in the order in which their keys came, and the subscribers of some keys, which
need not have an entry. -/
structure Bucket where
  entries : List Entry
  subscribers : OrderedMap String SubscriberList
  deriving DecidableEq

namespace Bucket

/-- The bucket without entries and subscribers, with which a table starts. -/
def empty : Bucket := ⟨[], .empty⟩

instance : Inhabited Bucket := ⟨empty⟩

/-- The value of a key, or `none` if the bucket has no entry of it. Operation: `get`. -/
def get? (b : Bucket) (key : String) : Option String :=
  (b.entries.find? (·.key == key)).map Entry.value

/-- Whether a key has an entry in the bucket. Operation: `contains`. -/
def contains (b : Bucket) (key : String) : Bool := b.entries.any (·.key == key)

/-- The subscribers of a key; a key that nobody watches has the empty list. Operation:
`subscribers`. -/
def subscribersOf (b : Bucket) (key : String) : SubscriberList :=
  (b.subscribers.find? key).getD .empty

/-- The notices that tell the subscribers of its key a notification (`SubscriberList.notices`). -/
def notices (b : Bucket) (n : Notification) : List Notice :=
  (b.subscribersOf n.key).notices n

/-- Gives a key a value, in its place if it has an entry and else at the end, and tells its
subscribers. Operation: `put`. -/
def put (b : Bucket) (key value : String) : Effect Bucket WriteOutcome :=
  let notices := b.notices ⟨key, value⟩
  if b.contains key then
    ⟨.updated, notices,
      { b with entries := b.entries.map fun e => if e.key = key then ⟨key, value⟩ else e }⟩
  else ⟨.inserted, notices, { b with entries := b.entries ++ [⟨key, value⟩] }⟩

/-- Deletes a key's entry, tells its subscribers and drops them all; the clients dropped are given,
for the index. A key without entry keeps its subscribers. Operation: `remove`. -/
def remove (b : Bucket) (key : String) : Effect Bucket (DeleteOutcome × List String) :=
  if b.contains key then
    ⟨(.deleted, (b.subscribersOf key).clients), b.notices (.deleted key),
      { entries := b.entries.filter (·.key != key), subscribers := b.subscribers.erase key }⟩
  else .pure (.missing, []) b

/-- Adds a subscriber of a key (`SubscriberList.add`), whether or not the key has an entry. -/
def subscribe (b : Bucket) (key : String) (s : Subscriber) : Bucket :=
  { b with subscribers := b.subscribers.insert key ((b.subscribersOf key).add s) }

/-- Drops a subscriber of a key. A list that becomes empty is dropped with it. Operation:
`unsubscribe`. -/
def unsubscribe (b : Bucket) (key client : String) : Bucket :=
  let left := (b.subscribersOf key).remove client
  { b with
    subscribers := if left.isEmpty then b.subscribers.erase key else b.subscribers.insert key left }

/-- Whether a client is among the subscribers of a key (`subscribersOf`). -/
def isSubscribed (b : Bucket) (key client : String) : Bool := (b.subscribersOf key).contains client

/-! ## Entries and subscribers after a change -/

/-- A key is in the bucket by `contains` if and only if it is the key of an entry. -/
theorem contains_iff {b : Bucket} {key : String} :
    b.contains key = true ↔ key ∈ b.entries.map Entry.key := by
  simp [contains]

/-- To `put` a value changes no subscribers. -/
@[simp] theorem subscribers_put (b : Bucket) (key value : String) :
    (b.put key value).state.subscribers = b.subscribers := by
  unfold put
  simp only
  split <;> rfl

/-- A key that is written by `put` keeps its place, and a new one comes last. -/
theorem keys_put (b : Bucket) (key value : String) :
    (b.put key value).state.entries.map Entry.key =
      if b.contains key then b.entries.map Entry.key else b.entries.map Entry.key ++ [key] := by
  unfold put
  simp only
  split
  case isTrue =>
    simp only [List.map_map]
    refine List.map_congr_left fun e _ => ?_
    simp only [Function.comp_apply]
    split
    case isTrue he => exact he.symm
    case isFalse => rfl
  case isFalse => simp

/-- Behind a `remove` the keys of the entries are those of before without the one removed, in the
same order. -/
theorem keys_remove (b : Bucket) (key : String) :
    (b.remove key).state.entries.map Entry.key = (b.entries.map Entry.key).filter (· != key) := by
  unfold remove
  split
  case isTrue =>
    simp only [List.filter_map]
    rfl
  case isFalse h =>
    refine (List.filter_eq_self.2 fun k hk => ?_).symm
    have hne : k ≠ key := fun he => h (contains_iff.2 (he ▸ hk))
    simpa using hne

/-- A key that has no entry is not deleted by `remove`, and nothing happens: its subscribers stay
and are told nothing. -/
theorem remove_of_not_contains {b : Bucket} {key : String} (h : ¬b.contains key = true) :
    b.remove key = .pure (.missing, []) b := by
  rw [remove, if_neg h]

/-- To `put` a value leaves every key the subscribers it has. -/
@[simp] theorem subscribersOf_put (b : Bucket) (key value k : String) :
    (b.put key value).state.subscribersOf k = b.subscribersOf k := by
  simp [subscribersOf]

/-- A key whose entry is deleted by `remove` loses its subscribers, and no other key does. -/
theorem subscribersOf_remove {b : Bucket} {key : String} (h : b.contains key = true) (k : String) :
    (b.remove key).state.subscribersOf k = if k = key then .empty else b.subscribersOf k := by
  simp only [remove, h, if_true, subscribersOf, OrderedMap.find?_erase]
  split <;> rfl

/-- To `subscribe` a client changes no entries. -/
@[simp] theorem entries_subscribe (b : Bucket) (key : String) (s : Subscriber) :
    (b.subscribe key s).entries = b.entries := rfl

/-- To `unsubscribe` a client changes no entries. -/
@[simp] theorem entries_unsubscribe (b : Bucket) (key client : String) :
    (b.unsubscribe key client).entries = b.entries := rfl

/-- Behind `subscribe` the key has the subscriber added to its list, and every other key has its
own. -/
theorem subscribersOf_subscribe (b : Bucket) (key k : String) (s : Subscriber) :
    (b.subscribe key s).subscribersOf k =
      if k = key then (b.subscribersOf key).add s else b.subscribersOf k := by
  simp only [subscribersOf, subscribe, OrderedMap.find?_insert]
  split <;> rfl

/-- Behind `unsubscribe` the key has its list without the client, and every other key has its own.
That an empty list is dropped cannot be told from `subscribersOf`. -/
theorem subscribersOf_unsubscribe (b : Bucket) (key client k : String) :
    (b.unsubscribe key client).subscribersOf k =
      if k = key then (b.subscribersOf key).remove client else b.subscribersOf k := by
  unfold unsubscribe
  by_cases hk : k = key
  · subst hk
    rw [if_pos rfl]
    simp only
    split
    case isTrue hempty =>
      rw [SubscriberList.isEmpty_iff.1 hempty]
      simp [subscribersOf, OrderedMap.find?_erase]
    case isFalse => simp [subscribersOf, OrderedMap.find?_insert]
  · rw [if_neg hk]
    simp only
    split <;> simp [subscribersOf, OrderedMap.find?_insert, OrderedMap.find?_erase, hk]

/-- A client is subscribed to a key if and only if its id stands in the list of the key. -/
theorem isSubscribed_iff {b : Bucket} {key client : String} :
    b.isSubscribed key client = true ↔ client ∈ (b.subscribersOf key).clients :=
  SubscriberList.contains_iff

end Bucket

end KeyWatch
