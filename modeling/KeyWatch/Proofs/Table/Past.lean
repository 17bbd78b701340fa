import Mathlib.Data.Set.Card
import Mathlib.Data.List.FinRange
import KeyWatch.Proofs.Notice.History
import KeyWatch.Proofs.Table.Contents

/-!
# The table is what its past makes it

Rows of changes are made on the empty table, single or in batches (`Change`). What the history says
then holds of the table: it gives each key the value last written since the last deletion
(`History.valueOf`), each change goes as the history dictates (`Change.dictated`), and the snapshot
lists the keys by bucket and, within one, by the moments since when they have had entries
(`History.aliveSince`). All of this is `Table.Reflects`, and `reflects_changes` says that it holds
after every row of changes.

The proof carries `Table.Records`, of which one happening makes the next (`Table.Records.write`,
`Table.Records.delete`). A batch is a row of happenings and a row of changes is a row of batches, so
`Table.Records.each` is used on either level.
-/

namespace KeyWatch

/-! ## What the history says of keys -/

namespace History

/-- The value of a key, if it has one: that of its latest write, unless it was deleted since. A key
without bucket (`route`) has none. -/
def valueOf (key : String) : History → Option String
  | [] => none
  | .write k value :: past =>
    if k = key ∧ (route key).isSome = true then some value else valueOf key past
  | .delete k :: past => if k = key then none else valueOf key past
  | _ :: past => valueOf key past

/-- The moment since when a key has had an entry, if it has one (`alive`): the first thing to happen
since it last had none. Moments are counted from the beginning. -/
def aliveSince (key : String) : History → Nat
  | [] => 0
  | _ :: past => if alive key past then aliveSince key past else past.length

/-- How a write of a key goes by the history alone; `Table.result_write` says the same by the
table. -/
def writing (key : String) (past : History) : WriteOutcome :=
  if route key = none then .rejected else if alive key past then .updated else .inserted

/-- How a deletion of a key goes by the history alone; `Table.result_delete` says the same by the
table. -/
def deleting (key : String) (past : History) : DeleteOutcome :=
  if alive key past then .deleted else .missing

/-- One key stands before another in a snapshot: its bucket comes first, or the two have one bucket
and it has had its entry for longer (`aliveSince`). -/
def Before (past : History) (a b : String) : Prop :=
  ∃ i j, route a = some i ∧ route b = some j ∧
    (i < j ∨ i = j ∧ aliveSince a past < aliveSince b past)

/-- What is told of things, each at its time, when each of them makes things happen. For a batch
this is what is told item by item. -/
def along {κ α : Type} (happenings : κ → List Happening) (tell : κ → History → α) :
    List κ → History → List α
  | [], _ => []
  | k :: rest, past =>
    tell k past :: along happenings tell rest ((happenings k).reverse ++ past)

/-- The keys with values (`valueOf`) are those that are `alive`. -/
theorem isSome_valueOf (key : String) (past : History) :
    (valueOf key past).isSome = alive key past := by
  induction past with
  | nil => rfl
  | cons now past ih =>
    cases now with
    | subscribe | unsubscribe | leave => exact ih
    | write k value =>
      rw [valueOf, alive, ← ih]
      split
      case isTrue hk => simp [hk.1, hk.2]
      case isFalse hk =>
        have hfalse : (k == key && (route key).isSome) = false := by
          simpa [Bool.and_eq_false_iff] using not_and.1 hk
        rw [hfalse, Bool.false_or]
    | delete k =>
      rw [valueOf, alive, ← ih]
      split
      case isTrue hk => simp [hk]
      case isFalse hk => simp [hk]

/-- A key that is `alive` has a bucket, since a write of any other is rejected. -/
theorem isSome_route_of_alive {key : String} {past : History} (h : alive key past = true) :
    (route key).isSome = true := by
  induction past with
  | nil => cases h
  | cons now past ih =>
    cases now with
    | subscribe | unsubscribe | leave => exact ih h
    | write k value =>
      rw [alive, Bool.or_eq_true, Bool.and_eq_true] at h
      exact h.elim And.right ih
    | delete k =>
      rw [alive, Bool.and_eq_true] at h
      exact ih h.2

/-- A key that is `alive` has been so since a moment of the history. -/
theorem aliveSince_lt {key : String} {past : History} (h : alive key past = true) :
    aliveSince key past < past.length := by
  induction past with
  | nil => cases h
  | cons now past ih =>
    rw [aliveSince, List.length_cons]
    split
    case isTrue hbefore => exact Nat.lt_succ_of_lt (ih hbefore)
    case isFalse => exact Nat.lt_succ_self _

/-- Whatever happens next, a key that is `alive` has been so since the same moment, if it still
is. -/
theorem aliveSince_cons {key : String} {past : History} (h : alive key past = true)
    (now : Happening) : aliveSince key (now :: past) = aliveSince key past :=
  if_pos h

/-- A key that is not `alive` before something happens is so since that moment, if it is behind
it. -/
theorem aliveSince_cons_of_not_alive {key : String} {past : History} (h : ¬alive key past = true)
    (now : Happening) : aliveSince key (now :: past) = past.length :=
  if_neg h

end History

open History

/-! ## Changes -/

/-- A change of the entries of a table, of one key or of many in a batch, as `Change.run` makes
it. -/
inductive Change where
  | write (key value : String)
  | writeMany (pairs : List (String × String))
  | delete (key : String)
  | deleteMany (keys : List String)
  deriving DecidableEq, Repr

/-- How a change went, key by key where it is one of many (`Change.run`). -/
inductive ChangeResult where
  | written (outcome : WriteOutcome)
  | writtenMany (outcomes : List (String × WriteOutcome))
  | deleted (outcome : DeleteOutcome)
  | deletedMany (outcomes : List (String × DeleteOutcome))
  deriving DecidableEq, Repr

namespace Change

/-- What a change does to a table, which is one of `Table.write`, `Table.writeMany`, `Table.delete`
and `Table.deleteMany`. -/
def run (change : Change) (t : Table) : Effect Table ChangeResult :=
  match change with
  | write key value => (t.write key value).map .written
  | writeMany pairs => (t.writeMany pairs).map .writtenMany
  | delete key => (t.delete key).map .deleted
  | deleteMany keys => (t.deleteMany keys).map .deletedMany

/-- The writing of a pair, as something that happens (`Happening.write`). -/
def writes (pair : String × String) : List Happening := [.write pair.1 pair.2]

/-- The deletion of a key, as something that happens (`Happening.delete`). -/
def deletes (key : String) : List Happening := [.delete key]

/-- What happens in a change, the earliest first; the items of a batch go in key order
(`Table.inKeyOrder`). -/
def happenings : Change → List Happening
  | write key value => [.write key value]
  | writeMany pairs => (Table.inKeyOrder (·.1) pairs).flatMap writes
  | delete key => [.delete key]
  | deleteMany keys => (Table.inKeyOrder id keys).flatMap deletes

/-- How a change has to go by the history alone, item by item in a batch (`along`). -/
def dictated (change : Change) (past : History) : ChangeResult :=
  match change with
  | write key _ => .written (writing key past)
  | writeMany pairs =>
    .writtenMany (along writes (fun pair past => (pair.1, writing pair.1 past))
      (Table.inKeyOrder (·.1) pairs) past)
  | delete key => .deleted (deleting key past)
  | deleteMany keys =>
    .deletedMany (along deletes (fun key past => (key, deleting key past))
      (Table.inKeyOrder id keys) past)

end Change

/-- The history that changes make one after another, the latest happening first. -/
def History.ofChanges (changes : List Change) : History :=
  (changes.flatMap Change.happenings).reverse

/-! ## The state that a history leaves -/

/-- A table that shows what the history says, to who reads one key or many, looks for a key, counts
the entries or lists them. -/
structure Table.Reflects (t : Table) (past : History) : Prop where
  read : ∀ key, t.read key = valueOf key past
  contains : ∀ key, t.contains key = (valueOf key past).isSome
  readMany : ∀ keys, ∀ found ∈ t.readMany keys, found.2 = valueOf found.1 past
  readInOrder : ∀ keys, ((t.readMany keys).map Prod.fst).Perm keys ∧
    ((t.readMany keys).map Prod.fst).Pairwise (· ≤ ·)
  size : t.size = {key | (valueOf key past).isSome = true}.ncard
  listed : ∀ e, e ∈ t.snapshot ↔ valueOf e.key past = some e.value
  once : (t.snapshot.map Entry.key).Nodup
  ordered : (t.snapshot.map Entry.key).Pairwise (Before past)
  routed : ∀ e ∈ t.snapshot, (route e.key).isSome = true

/-- A table in good order whose keys have the values that the history says, and stand in each bucket
by the moments since when they are alive. This is the invariant of a row of changes, and it gives
`Table.Reflects`. -/
structure Table.Records (t : Table) (past : History) : Prop where
  consistent : t.Consistent
  values : ∀ key, t.read key = valueOf key past
  ordered : ∀ i, ((t.bucket i).entries.map Entry.key).Pairwise
    fun a b => aliveSince a past < aliveSince b past

namespace Table.Records

variable {t : Table} {past : History}

/-- The table `empty` records the history in which nothing happened. -/
theorem empty : Table.empty.Records [] where
  consistent := .empty
  values key := by
    unfold Table.read
    cases route key with
    | none => rfl
    | some i =>
      rw [Option.bind_some, bucket_empty]
      rfl
  ordered i := by
    rw [bucket_empty]
    exact .nil

/-- The keys with an entry in a table that records the history are those that are `alive` in it. -/
theorem contains (h : t.Records past) (key : String) : t.contains key = alive key past := by
  rw [← isSome_read, h.values, isSome_valueOf]

/-- The keys of a bucket of a table that records the history are `alive` in it. -/
theorem alive_of_mem (h : t.Records past) {i : BucketIndex} {key : String}
    (hkey : key ∈ (t.bucket i).entries.map Entry.key) : alive key past = true := by
  obtain ⟨e, he, rfl⟩ := List.mem_map.1 hkey
  have hr : route e.key = some i := (h.consistent.buckets i).entriesRouted e he
  rw [← h.contains, contains_of_route hr]
  exact Bucket.contains_iff.2 (List.mem_map_of_mem he)

/-- Keys that stay in their places are in order by age after whatever happens, since `aliveSince`
does not change for them. -/
theorem ordered_cons (h : t.Records past) (now : Happening) (i : BucketIndex) {keys : List String}
    (hkeys : keys.Sublist ((t.bucket i).entries.map Entry.key)) :
    keys.Pairwise fun a b => aliveSince a (now :: past) < aliveSince b (now :: past) := by
  refine ((h.ordered i).sublist hkeys).imp_of_mem fun ha hb hab => ?_
  rwa [aliveSince_cons (h.alive_of_mem (hkeys.subset ha)),
    aliveSince_cons (h.alive_of_mem (hkeys.subset hb))]

/-- A `write` goes as the history dictates, and the table records it: a key keeps its place, and a
new one comes last, as it has been alive for the shortest time. -/
theorem write (h : t.Records past) (key value : String) :
    (t.write key value).result = writing key past ∧
      (t.write key value).state.Records (.write key value :: past) := by
  refine ⟨?_, h.consistent.write key value, fun k => ?_, fun i => ?_⟩
  · rw [result_write, h.contains]
    rfl
  · rw [read_write, h.values]
    rfl
  · cases hr : route key with
    | none =>
      rw [Table.write, hr]
      exact h.ordered_cons _ i (List.Sublist.refl _)
    | some j =>
      have hbucket : (t.write key value).state.bucket i =
          if i = j then ((t.bucket j).put key value).state else t.bucket i := by
        rw [Table.write, hr]
        exact bucket_setBucket t j i _
      rw [hbucket]
      by_cases hi : i = j
      · subst hi
        rw [if_pos rfl, Bucket.keys_put]
        split
        case isTrue => exact h.ordered_cons _ i (List.Sublist.refl _)
        case isFalse hnew =>
          have hdead : ¬alive key past = true := by
            rw [← h.contains, contains_of_route hr]
            exact hnew
          refine List.pairwise_append.2
            ⟨h.ordered_cons _ i (List.Sublist.refl _), List.pairwise_singleton _ _, ?_⟩
          intro k hk last hlast
          obtain rfl := List.mem_singleton.1 hlast
          have halive := h.alive_of_mem hk
          rw [aliveSince_cons halive, aliveSince_cons_of_not_alive hdead]
          exact aliveSince_lt halive
      · rw [if_neg hi]
        exact h.ordered_cons _ i (List.Sublist.refl _)

/-- A `delete` goes as the history dictates, and the table records it: the keys that are left keep
their places. -/
theorem delete (h : t.Records past) (key : String) :
    (t.delete key).result = deleting key past ∧
      (t.delete key).state.Records (.delete key :: past) := by
  refine ⟨?_, h.consistent.delete key, fun k => ?_, fun i => ?_⟩
  · rw [result_delete, h.contains]
    rfl
  · rw [read_delete, h.values]
    rfl
  · refine h.ordered_cons _ i ?_
    cases hr : route key with
    | none =>
      rw [Table.delete, hr]
      exact List.Sublist.refl _
    | some j =>
      have hbucket : (t.delete key).state.bucket i =
          if i = j then ((t.bucket j).remove key).state else t.bucket i := by
        rw [Table.delete, hr]
        exact bucket_setBucket t j i _
      rw [hbucket]
      by_cases hi : i = j
      · subst hi
        rw [if_pos rfl, Bucket.keys_remove]
        exact List.filter_sublist
      · rw [if_neg hi]

/-- What is done to things one after another (`Effect.each`) goes as the history dictates, if each
of them does, and the table records all of it. -/
theorem each {κ α : Type} (op : κ → Table → Effect Table α) (happenings : κ → List Happening)
    (tell : κ → History → α)
    (hop : ∀ k (t : Table) past, t.Records past → (op k t).result = tell k past ∧
      (op k t).state.Records ((happenings k).reverse ++ past))
    (items : List κ) {t : Table} {past : History} (h : t.Records past) :
    (Effect.each op items t).result = along happenings tell items past ∧
      (Effect.each op items t).state.Records ((items.flatMap happenings).reverse ++ past) := by
  induction items generalizing t past with
  | nil => exact ⟨rfl, h⟩
  | cons k rest ih =>
    obtain ⟨hresult, hstate⟩ := hop k t past h
    obtain ⟨hresults, hend⟩ := ih hstate
    rw [Effect.each_cons, along, List.flatMap_cons, List.reverse_append, List.append_assoc]
    exact ⟨congrArg₂ List.cons hresult hresults, hend⟩

/-- A change goes as the history dictates (`Change.dictated`), and the table records what happened
in it. -/
theorem change (h : t.Records past) (change : Change) :
    (change.run t).result = change.dictated past ∧
      (change.run t).state.Records (change.happenings.reverse ++ past) := by
  cases change with
  | write key value =>
    obtain ⟨hresult, hstate⟩ := h.write key value
    exact ⟨congrArg ChangeResult.written hresult, hstate⟩
  | delete key =>
    obtain ⟨hresult, hstate⟩ := h.delete key
    exact ⟨congrArg ChangeResult.deleted hresult, hstate⟩
  | writeMany pairs =>
    rw [Change.run, writeMany_eq_each]
    obtain ⟨hresult, hstate⟩ := each writePair Change.writes
      (fun pair past => (pair.1, writing pair.1 past))
      (fun pair t past ht => ⟨congrArg (Prod.mk pair.1) (ht.write pair.1 pair.2).1,
        (ht.write pair.1 pair.2).2⟩) (inKeyOrder (·.1) pairs) h
    exact ⟨congrArg ChangeResult.writtenMany hresult, hstate⟩
  | deleteMany keys =>
    rw [Change.run, deleteMany_eq_each]
    obtain ⟨hresult, hstate⟩ := each deleteKey Change.deletes
      (fun key past => (key, deleting key past))
      (fun key t past ht => ⟨congrArg (Prod.mk key) (ht.delete key).1, (ht.delete key).2⟩)
      (inKeyOrder id keys) h
    exact ⟨congrArg ChangeResult.deletedMany hresult, hstate⟩

end Table.Records

/-! ## The snapshot -/

namespace Table

/-- The snapshot lists the entries of the buckets one bucket after another. -/
theorem snapshot_eq (t : Table) :
    t.snapshot = (List.finRange bucketCount).flatMap fun i => (t.bucket i).entries := by
  have hbuckets : t.buckets.toList = (List.finRange bucketCount).map t.bucket := by
    refine List.ext_getElem (by simp) fun i hi hi' => ?_
    simp [bucket]
  rw [snapshot, hbuckets, List.flatMap_map]

/-- The `size` of a table is the length of its snapshot. -/
theorem size_eq (t : Table) : t.size = t.snapshot.length :=
  List.length_flatMap.symm

/-- In a consistent table the entries that are listed are those that are read: each key with its
value. -/
theorem Consistent.mem_snapshot_iff {t : Table} (h : t.Consistent) {e : Entry} :
    e ∈ t.snapshot ↔ t.read e.key = some e.value := by
  rw [snapshot_eq, List.mem_flatMap]
  constructor
  · rintro ⟨i, -, he⟩
    rw [read_of_route ((h.buckets i).entriesRouted e he)]
    exact (Bucket.get?_eq_some_iff (h.buckets i).keysDistinct).2 he
  · intro hread
    cases hr : route e.key with
    | none =>
      rw [read_of_not_routed hr] at hread
      cases hread
    | some i =>
      rw [read_of_route hr] at hread
      exact ⟨i, List.mem_finRange i,
        (Bucket.get?_eq_some_iff (h.buckets i).keysDistinct).1 hread⟩

/-- In a consistent table no key is listed twice, since keys of different buckets differ. -/
theorem Consistent.nodup_snapshot {t : Table} (h : t.Consistent) :
    (t.snapshot.map Entry.key).Nodup := by
  rw [snapshot_eq, List.nodup_iff_pairwise_ne, List.pairwise_map, List.pairwise_flatMap]
  refine ⟨fun i _ => List.pairwise_map.1 (h.buckets i).keysDistinct,
    (List.pairwise_lt_finRange bucketCount).imp fun {i j} hij a ha b hb he => ?_⟩
  have ha' := (h.buckets i).entriesRouted a ha
  rw [he, (h.buckets j).entriesRouted b hb] at ha'
  exact Nat.lt_irrefl _ (Option.some.inj ha' ▸ hij)

/-- The entries of a bucket are those listed whose keys belong to it, as they stand in the list. So
the snapshot determines the entries of every bucket. -/
theorem Consistent.filter_snapshot {t : Table} (h : t.Consistent) (i : BucketIndex) :
    t.snapshot.filter (fun e => route e.key == some i) = (t.bucket i).entries := by
  have hother : ∀ j ≠ i, (t.bucket j).entries.filter (fun e => route e.key == some i) = [] := by
    intro j hj
    refine List.filter_eq_nil_iff.2 fun e he => ?_
    rw [(h.buckets j).entriesRouted e he, beq_iff_eq, Option.some_inj]
    exact hj
  have hown : (t.bucket i).entries.filter (fun e => route e.key == some i) =
      (t.bucket i).entries := by
    refine List.filter_eq_self.2 fun e he => ?_
    rw [(h.buckets i).entriesRouted e he, beq_self_eq_true]
  obtain ⟨before, after, hrange⟩ := List.append_of_mem (List.mem_finRange i)
  have hnodup := List.nodup_finRange bucketCount
  rw [hrange, List.nodup_middle, List.nodup_cons, List.mem_append, not_or] at hnodup
  obtain ⟨⟨hbefore, hafter⟩, -⟩ := hnodup
  rw [snapshot_eq, hrange, List.filter_flatMap, List.flatMap_append, List.flatMap_cons, hown,
    List.flatMap_eq_nil_iff.2 fun j hj => hother j fun he => hbefore (he ▸ hj),
    List.flatMap_eq_nil_iff.2 fun j hj => hother j fun he => hafter (he ▸ hj),
    List.nil_append, List.append_nil]

namespace Records

variable {t : Table} {past : History}

/-- The snapshot goes through the buckets, and in each through the keys by age (`Before`). -/
theorem pairwise_snapshot (h : t.Records past) :
    (t.snapshot.map Entry.key).Pairwise (Before past) := by
  have hroute : ∀ i, ∀ e ∈ (t.bucket i).entries, route e.key = some i :=
    fun i => (h.consistent.buckets i).entriesRouted
  rw [snapshot_eq, List.pairwise_map, List.pairwise_flatMap]
  refine ⟨fun i _ => ?_, (List.pairwise_lt_finRange bucketCount).imp fun {i j} hij => ?_⟩
  · refine (List.pairwise_map.1 (h.ordered i)).imp_of_mem fun {a b} ha hb hab => ?_
    exact ⟨i, i, hroute i a ha, hroute i b hb, .inr ⟨rfl, hab⟩⟩
  · intro a ha b hb
    exact ⟨i, j, hroute i a ha, hroute j b hb, .inl hij⟩

/-- A table that records the history has as many entries as the history has keys with values. -/
theorem size_eq_ncard (h : t.Records past) :
    t.size = {key | (valueOf key past).isSome = true}.ncard := by
  have hset : {key | (valueOf key past).isSome = true} =
      ((t.snapshot.map Entry.key).toFinset : Set String) := by
    ext key
    rw [Set.mem_ofPred_eq, Finset.mem_coe, List.mem_toFinset, List.mem_map, ← h.values,
      Option.isSome_iff_exists]
    constructor
    · rintro ⟨value, hvalue⟩
      exact ⟨⟨key, value⟩, h.consistent.mem_snapshot_iff.2 hvalue, rfl⟩
    · rintro ⟨e, he, rfl⟩
      exact ⟨e.value, h.consistent.mem_snapshot_iff.1 he⟩
  rw [hset, Set.ncard_coe_finset,
    List.toFinset_card_of_nodup h.consistent.nodup_snapshot, List.length_map, size_eq]

/-- A table that records the history (`Records`) shows it (`Reflects`), to whoever looks at it. -/
theorem reflects (h : t.Records past) : t.Reflects past where
  read := h.values
  contains key := by rw [← isSome_read, h.values]
  readMany keys found hfound := by
    rw [readMany_eq_map] at hfound
    obtain ⟨key, -, rfl⟩ := List.mem_map.1 hfound
    exact h.values key
  readInOrder keys := by
    obtain ⟨hordered, hperm, -⟩ := inKeyOrder_stable id keys
    rw [readMany_eq_map, List.map_map]
    have hkeys : (inKeyOrder id keys).map (Prod.fst ∘ fun key => (key, t.read key)) =
        inKeyOrder id keys := List.map_id _
    rw [hkeys]
    exact ⟨hperm, hordered⟩
  size := h.size_eq_ncard
  listed e := by rw [h.consistent.mem_snapshot_iff, h.values]
  once := h.consistent.nodup_snapshot
  ordered := h.pairwise_snapshot
  routed e he := by
    have hread := h.consistent.mem_snapshot_iff.1 he
    rw [h.values] at hread
    have halive : alive e.key past = true := by
      rw [← isSome_valueOf, hread]
      rfl
    exact isSome_route_of_alive halive

end Records

/-- Every row of changes of the empty table goes as the history dictates, change by change
(`Change.dictated`), and leaves a table that shows what the history says (`Table.Reflects`). -/
theorem reflects_changes (changes : List Change) :
    (Effect.each Change.run changes .empty).result =
        along Change.happenings Change.dictated changes [] ∧
      (Effect.each Change.run changes .empty).state.Reflects (.ofChanges changes) := by
  obtain ⟨hresult, hstate⟩ := Records.each Change.run Change.happenings Change.dictated
    (fun change _ _ h => h.change change) changes Records.empty
  rw [List.append_nil] at hstate
  exact ⟨hresult, hstate.reflects⟩

end Table

end KeyWatch
