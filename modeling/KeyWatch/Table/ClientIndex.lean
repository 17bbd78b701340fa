import KeyWatch.OrderedMap

/-!
# The keys of every client

The index says which keys each client watches, and so which buckets a client that leaves has to be
dropped from. A client that watches nothing is not in the index.
-/

namespace KeyWatch

/-- A set of keys, as the keys of a finite map. -/
abbrev KeySet := OrderedMap String Unit

/-- The keys that each client watches. A client that watches none has no entry
(`ClientIndex.remove`). -/
structure ClientIndex where
  keySets : OrderedMap String KeySet
  deriving DecidableEq

namespace ClientIndex

/-- The index without clients, with which a table starts. -/
def empty : ClientIndex := ⟨.empty⟩

/-- The set of keys of a client, which is empty for a client that is not in the index. -/
def keySet (i : ClientIndex) (client : String) : KeySet := (i.keySets.find? client).getD .empty

/-- The keys of a client, ascending. Operation: `keys_of`. -/
def keysOf (i : ClientIndex) (client : String) : List String := (i.keySet client).keys

/-- Whether a client watches a key. Operation: `contains`. -/
def contains (i : ClientIndex) (client key : String) : Bool := (i.keySet client).contains key

/-- The number of clients that watch a key. Operation: `client_count`. -/
def clientCount (i : ClientIndex) : Nat := i.keySets.size

/-- Gives a client a key, which it may have already. Operation: `insert`. -/
def insert (i : ClientIndex) (client key : String) : ClientIndex :=
  ⟨i.keySets.insert client ((i.keySet client).insert key ())⟩

/-- Takes a key from a client; a client that is left without keys goes from the index. Operation:
`remove`. -/
def remove (i : ClientIndex) (client key : String) : ClientIndex :=
  let left := (i.keySet client).erase key
  ⟨if left.bindings.isEmpty then i.keySets.erase client else i.keySets.insert client left⟩

/-- Takes every key from a client. Operation: `take`, which also gives the keys (`keysOf`). -/
def drop (i : ClientIndex) (client : String) : ClientIndex := ⟨i.keySets.erase client⟩

/-! ## Look-ups after a change -/

/-- Behind `insert` the client has the key too, and every other client has its own keys. -/
theorem keySet_insert (i : ClientIndex) (client other key : String) :
    (i.insert client key).keySet other =
      if other = client then (i.keySet client).insert key () else i.keySet other := by
  simp only [keySet, insert, OrderedMap.find?_insert]
  split <;> rfl

/-- Behind `remove` the client does not have the key, and every other client has its own keys. That
a client without keys goes from the index cannot be told from `keySet`. -/
theorem keySet_remove (i : ClientIndex) (client other key : String) :
    (i.remove client key).keySet other =
      if other = client then (i.keySet client).erase key else i.keySet other := by
  unfold remove
  by_cases ho : other = client
  · subst ho
    rw [if_pos rfl]
    simp only
    split
    case isTrue hempty =>
      rw [OrderedMap.eq_empty_iff.2 (List.isEmpty_iff.1 hempty)]
      simp [keySet, OrderedMap.find?_erase]
    case isFalse => simp [keySet, OrderedMap.find?_insert]
  · rw [if_neg ho]
    simp only
    split <;> simp [keySet, OrderedMap.find?_insert, OrderedMap.find?_erase, ho]

/-- Behind `drop` the client has no keys, and every other client has its own. -/
theorem keySet_drop (i : ClientIndex) (client other : String) :
    (i.drop client).keySet other = if other = client then .empty else i.keySet other := by
  simp only [keySet, drop, OrderedMap.find?_erase]
  split <;> rfl

/-- The pairs of client and key behind `insert` are those of before and the one inserted. -/
theorem contains_insert {i : ClientIndex} {client other key k : String} :
    (i.insert client key).contains other k = true ↔
      other = client ∧ k = key ∨ i.contains other k = true := by
  simp only [contains, keySet_insert]
  by_cases ho : other = client
  · subst ho
    by_cases hk : k = key <;> simp [OrderedMap.contains, OrderedMap.find?_insert, hk]
  · simp [ho]

/-- The pairs of client and key behind `remove` are those of before without the one removed. -/
theorem contains_remove {i : ClientIndex} {client other key k : String} :
    (i.remove client key).contains other k = true ↔
      ¬(other = client ∧ k = key) ∧ i.contains other k = true := by
  simp only [contains, keySet_remove]
  by_cases ho : other = client
  · subst ho
    by_cases hk : k = key <;> simp [OrderedMap.contains, OrderedMap.find?_erase, hk]
  · simp [ho]

/-- The pairs of client and key behind `drop` are those of before whose client is another. -/
theorem contains_drop {i : ClientIndex} {client other k : String} :
    (i.drop client).contains other k = true ↔ other ≠ client ∧ i.contains other k = true := by
  simp only [contains, keySet_drop]
  by_cases ho : other = client <;> simp [ho, OrderedMap.contains]

/-- The keys of `keysOf` are those that the index `contains` for the client. -/
theorem mem_keysOf {i : ClientIndex} {client key : String} :
    key ∈ i.keysOf client ↔ i.contains client key = true :=
  OrderedMap.mem_keys_iff _ key

end ClientIndex

end KeyWatch
