import KeyWatch.Table.Bucket
import KeyWatch.Table.ClientIndex
import KeyWatch.Table.Route

/-!
# The table

The table is its buckets and the index of clients. Operations on one key go to the key's bucket; a
key without bucket is rejected or missing. The entries of the table stand by bucket, and within a
bucket in the order in which their keys came (`Table.snapshot`).

An operation sends its notices while it holds the bucket, so their order is the order of the
changes; it does not wait for what becomes of them, and no notice that is lost changes the table.
-/

namespace KeyWatch

/-- The buckets of the table and the keys that each client watches. That index and buckets say the
same of who watches what is the invariant `Table.Consistent`. -/
structure Table where
  buckets : Vector Bucket bucketCount
  index : ClientIndex
  deriving DecidableEq

namespace Table

/-- The table without entries and subscribers. Operation: `new` of the table. -/
def empty : Table := ⟨.replicate bucketCount .empty, .empty⟩

/-- A bucket of the table by its number. Operation: `bucket`. -/
def bucket (t : Table) (i : BucketIndex) : Bucket := t.buckets[i]

/-- The table with a bucket replaced and the index as it is. -/
def setBucket (t : Table) (i : BucketIndex) (b : Bucket) : Table :=
  { t with buckets := t.buckets.set i b }

/-- The index without a key of some clients (`ClientIndex.remove`), which `Table.delete` does for
the clients that a deletion drops. -/
def forget (index : ClientIndex) (key : String) (clients : List String) : ClientIndex :=
  clients.foldl (fun index client => index.remove client key) index

/-- Writes a pair into the bucket of its key (`Bucket.put`), or rejects a key without bucket.
Operation: `write`. -/
def write (t : Table) (key value : String) : Effect Table WriteOutcome :=
  match route key with
  | none => .pure .rejected t
  | some i => ((t.bucket i).put key value).within (t.setBucket i)

/-- The value of a key in its bucket (`Bucket.get?`), or `none`. Operation: `read`. -/
def read (t : Table) (key : String) : Option String :=
  (route key).bind fun i => (t.bucket i).get? key

/-- Whether a key has an entry in its bucket. Operation: `contains`. -/
def contains (t : Table) (key : String) : Bool :=
  (route key).any fun i => (t.bucket i).contains key

/-- Deletes a key from its bucket (`Bucket.remove`) and from the index of the clients that are
dropped with it (`Table.forget`). Operation: `delete`. -/
def delete (t : Table) (key : String) : Effect Table DeleteOutcome :=
  match route key with
  | none => .pure .missing t
  | some i =>
    let removal := (t.bucket i).remove key
    let (outcome, dropped) := removal.result
    ⟨outcome, removal.notices,
      { t.setBucket i removal.state with index := forget t.index key dropped }⟩

/-- Every entry, by bucket and then in the order in which the keys came. Operation: `snapshot`. -/
def snapshot (t : Table) : List Entry := t.buckets.toList.flatMap Bucket.entries

/-- The number of entries in all buckets. Operation: `len`. -/
def size (t : Table) : Nat :=
  (t.buckets.toList.map fun b => b.entries.length).foldr (· + ·) 0

/-- The ids of the subscribers of a key, in the order in which they came. Operation:
`subscribers_of`. -/
def subscribersOf (t : Table) (key : String) : List String :=
  match route key with
  | none => []
  | some i => ((t.bucket i).subscribersOf key).clients

/-! ## Buckets of a changed table -/

/-- Behind `setBucket` the bucket of that number is the new one, and every other is what it was. -/
theorem bucket_setBucket (t : Table) (i j : BucketIndex) (b : Bucket) :
    (t.setBucket i b).bucket j = if j = i then b else t.bucket j := by
  simp only [bucket, setBucket, Fin.getElem_fin, Vector.getElem_set]
  by_cases h : j = i
  · simp [h]
  · rw [if_neg h, if_neg (fun he => h (Fin.ext he).symm)]

/-- To `setBucket` leaves the index as it is. -/
@[simp] theorem index_setBucket (t : Table) (i : BucketIndex) (b : Bucket) :
    (t.setBucket i b).index = t.index := rfl

/-- The buckets of a table do not depend on its index. -/
@[simp] theorem bucket_withIndex (t : Table) (index : ClientIndex) (i : BucketIndex) :
    ({ t with index } : Table).bucket i = t.bucket i := rfl

/-- Every bucket of the table `empty` is empty. -/
@[simp] theorem bucket_empty (i : BucketIndex) : empty.bucket i = .empty := by
  simp [bucket, empty]

/-- Tables with the same buckets, number by number (`bucket`), and the same index are the same. -/
theorem ext_bucket {t u : Table} (h : ∀ i, t.bucket i = u.bucket i) (hi : t.index = u.index) :
    t = u := by
  obtain ⟨buckets, index⟩ := t
  obtain ⟨buckets', index'⟩ := u
  have hb : buckets = buckets' := Vector.ext fun i hlt => h ⟨i, hlt⟩
  rw [hb, show index = index' from hi]

/-- Behind `forget` the index has the pairs of before but those of the key and one of the
clients. -/
theorem contains_forget {index : ClientIndex} {key client k : String} {clients : List String} :
    (forget index key clients).contains client k = true ↔
      ¬(client ∈ clients ∧ k = key) ∧ index.contains client k = true := by
  induction clients generalizing index with
  | nil => simp [forget]
  | cons c rest ih =>
    have hstep : forget index key (c :: rest) = forget (index.remove c key) key rest := rfl
    rw [hstep, ih, ClientIndex.contains_remove, List.mem_cons]
    constructor
    · rintro ⟨hrest, hc, h⟩
      refine ⟨?_, h⟩
      rintro ⟨rfl | hmem, hk⟩
      · exact hc ⟨rfl, hk⟩
      · exact hrest ⟨hmem, hk⟩
    · rintro ⟨hnot, h⟩
      exact ⟨fun ⟨hmem, hk⟩ => hnot ⟨.inr hmem, hk⟩, fun ⟨he, hk⟩ => hnot ⟨.inl he, hk⟩, h⟩

end Table

end KeyWatch
