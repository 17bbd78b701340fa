import KeyWatch.Table.Basic

/-!
# Batches

A batch is applied in the order of its keys; items of one key keep the order in which they were
given. The buckets that the keys touch are held from the first item to the last, so nothing else
happens to them in between: the items are applied to the buckets held (`Holding`), which are then
put back.
-/

namespace KeyWatch

/-- Buckets that are held for a batch (`Table.hold`), and the index of clients, on which the items
of the batch act until `Table.release`. -/
structure Holding where
  held : OrderedMap BucketIndex Bucket
  index : ClientIndex

namespace Holding

/-- The bucket of a key with its number, if the key has a bucket and it is held. -/
def bucket? (h : Holding) (key : String) : Option (BucketIndex × Bucket) := do
  let i ← route key
  let b ← h.held.find? i
  return (i, b)

/-- The holding with a bucket replaced and the index as it is. -/
def setBucket (h : Holding) (i : BucketIndex) (b : Bucket) : Holding :=
  { h with held := h.held.insert i b }

/-- Writes a pair into the bucket held for it, as `Table.write` does in the table, and gives the key
with the outcome. -/
def write (pair : String × String) (h : Holding) : Effect Holding (String × WriteOutcome) :=
  match h.bucket? pair.1 with
  | none => .pure (pair.1, .rejected) h
  | some (i, b) => ((b.put pair.1 pair.2).within (h.setBucket i)).map fun o => (pair.1, o)

/-- The value of a key in the bucket held for it, as `Table.read` gives it from the table. -/
def read (h : Holding) (key : String) : Option String :=
  (h.bucket? key).bind fun (_, b) => b.get? key

/-- Deletes a key from the bucket held for it and from the index of the clients dropped, as
`Table.delete` does in the table, and gives the key with the outcome. -/
def delete (key : String) (h : Holding) : Effect Holding (String × DeleteOutcome) :=
  match h.bucket? key with
  | none => .pure (key, .missing) h
  | some (i, b) =>
    let removal := b.remove key
    let (outcome, dropped) := removal.result
    ⟨(key, outcome), removal.notices,
      { h.setBucket i removal.state with index := Table.forget h.index key dropped }⟩

/-- Drops a client from the subscribers of a key, in the bucket held for it, and says whether it was
among them. The index is left as it is, since `Table.takeKeys` has seen to it. -/
def unlink (client key : String) (h : Holding) : Effect Holding Bool :=
  match h.bucket? key with
  | none => .pure false h
  | some (i, b) => ⟨b.isSubscribed key client, [], h.setBucket i (b.unsubscribe key client)⟩

end Holding

namespace Table

/-- Holds the buckets of some keys, each once however many of its keys are given. Operations:
`touched_buckets`, `lock_write`, `lock_read`. -/
def hold (t : Table) (keys : List String) : Holding :=
  ⟨(keys.filterMap route).foldl (fun held i => held.insert i (t.bucket i)) .empty, t.index⟩

/-- Puts back what was held (`Holding`), and with it the index. -/
def release (t : Table) (h : Holding) : Table :=
  { h.held.bindings.foldl (fun t p => t.setBucket p.1 p.2) t with index := h.index }

/-- The items of a batch in the order in which they are applied: by key, and those of one key in the
order in which they were given. -/
def inKeyOrder {α : Type} (key : α → String) (batch : List α) : List α :=
  batch.mergeSort fun a b => key a ≤ key b

/-- Writes a batch of pairs in key order on the buckets that they touch (`Holding.write`).
Operation: `write_many`. -/
def writeMany (t : Table) (pairs : List (String × String)) :
    Effect Table (List (String × WriteOutcome)) :=
  let sorted := inKeyOrder (·.1) pairs
  (Effect.each Holding.write sorted (t.hold (sorted.map (·.1)))).within t.release

/-- Reads a batch of keys in key order from the buckets that they touch (`Holding.read`). Operation:
`read_many`. -/
def readMany (t : Table) (keys : List String) : List (String × Option String) :=
  let sorted := inKeyOrder id keys
  let h := t.hold sorted
  sorted.map fun key => (key, h.read key)

/-- Deletes a batch of keys in key order from the buckets that they touch (`Holding.delete`).
Operation: `delete_many`. -/
def deleteMany (t : Table) (keys : List String) : Effect Table (List (String × DeleteOutcome)) :=
  let sorted := inKeyOrder id keys
  (Effect.each Holding.delete sorted (t.hold sorted)).within t.release

end Table

end KeyWatch
