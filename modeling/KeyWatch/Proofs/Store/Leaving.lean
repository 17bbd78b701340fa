import KeyWatch.Proofs.Store.Isolation

/-!
# A client leaves in two steps

A client that leaves is dropped from the index first and from the lists of its keys afterwards
(`Table.takeKeys`, `Table.unlink`), and others work on the store in between. There the index does
not know a client that stands in lists, so nothing that is kept of a whole table is kept of this
one. It makes no difference: `removeAll_split` says that whatever the others do in the gap, the
table is in the end the one that it is if the client leaves at once before them, and also the one
that it is if the client leaves at once after them.

The gap needs no invariant of its own, since the others do not look at the client's part of the
index. What they do on the table without it is what they do on the whole table, with the part taken
out afterwards (`Operation.onTable_takeKeys`). So at the end of the gap the table is a consistent
one that just now lost the client's part, and the keys that were taken at the beginning still cover
the lists in which the client stands, as the others can only drop it from some
(`Table.Consistent.mem_keysOf_tableAfter`).
-/

namespace KeyWatch

/-! ## The index without a client -/

namespace ClientIndex

variable {other client : String}

/-- Indexes that have the same sets of keys for every client are the same, since their maps are
(`OrderedMap.ext_find?`). -/
theorem ext_find? {i j : ClientIndex} (h : ∀ c, i.keySets.find? c = j.keySets.find? c) : i = j := by
  obtain ⟨sets⟩ := i
  obtain ⟨sets'⟩ := j
  exact congrArg mk (OrderedMap.ext_find? h)

/-- Behind `remove` the client has its set without the key, or none if that is empty, and every
other client has its own. -/
theorem find?_remove (i : ClientIndex) (client key c : String) :
    (i.remove client key).keySets.find? c =
      if c = client then
        if ((i.keySet client).erase key).bindings.isEmpty then none
        else some ((i.keySet client).erase key)
      else i.keySets.find? c := by
  unfold remove
  simp only
  split
  case isTrue => rw [OrderedMap.find?_erase]
  case isFalse => rw [OrderedMap.find?_insert]

/-- Behind `drop` the client has no set of keys, and every other client has its own. -/
theorem find?_drop (i : ClientIndex) (client c : String) :
    (i.drop client).keySets.find? c = if c = client then none else i.keySets.find? c :=
  OrderedMap.find?_erase i.keySets client c

/-- To `insert` a key for another client and to `drop` a client can be done in any order. -/
theorem drop_insert (i : ClientIndex) (h : other ≠ client) (key : String) :
    (i.drop client).insert other key = (i.insert other key).drop client := by
  have hset : (i.drop client).keySet other = i.keySet other := by rw [keySet_drop, if_neg h]
  refine ext_find? fun c => ?_
  simp only [find?_drop, insert, OrderedMap.find?_insert, hset]
  by_cases hc : c = client
  · rw [if_pos hc, if_pos hc, if_neg fun ho => h (ho.symm.trans hc)]
  · rw [if_neg hc, if_neg hc]

/-- To `remove` a key of any client and to `drop` a client can be done in any order; from the client
itself nothing is left to take. -/
theorem drop_remove (i : ClientIndex) (client other key : String) :
    (i.drop client).remove other key = (i.remove other key).drop client := by
  refine ext_find? fun c => ?_
  rw [find?_remove, find?_drop, find?_drop, find?_remove, keySet_drop]
  by_cases ho : c = other
  · subst ho
    by_cases hc : c = client
    · simp [hc, OrderedMap.erase, OrderedMap.empty]
    · simp [hc]
  · rw [if_neg ho, if_neg ho]

/-- Two clients can be dropped in any order. -/
theorem drop_drop (i : ClientIndex) (client other : String) :
    (i.drop client).drop other = (i.drop other).drop client := by
  refine ext_find? fun c => ?_
  simp only [find?_drop]
  split <;> split <;> rfl

end ClientIndex

/-! ## The table without a client's part of the index -/

namespace Table

variable {client other : String}

/-- To `forget` a key of some clients and to `drop` a client can be done in any order. -/
theorem forget_drop (index : ClientIndex) (client key : String) (clients : List String) :
    forget (index.drop client) key clients = (forget index key clients).drop client := by
  induction clients generalizing index with
  | nil => rfl
  | cons c rest ih =>
    show forget ((index.drop client).remove c key) key rest = _
    rw [ClientIndex.drop_remove]
    exact ih (index.remove c key)

/-- To `write` a pair and to `takeKeys` of a client can be done in any order: the tables are the
same. -/
theorem write_takeKeys (t : Table) (client key value : String) :
    ((t.takeKeys client).2.write key value).state =
      ((t.write key value).state.takeKeys client).2 := by
  unfold write
  cases route key with
  | none => rfl
  | some i => rfl

/-- To `delete` a key and to `takeKeys` of a client can be done in any order: the tables are the
same. -/
theorem delete_takeKeys (t : Table) (client key : String) :
    ((t.takeKeys client).2.delete key).state = ((t.delete key).state.takeKeys client).2 := by
  unfold delete
  cases route key with
  | none => rfl
  | some i =>
    refine ext_bucket (fun j => rfl) ?_
    exact forget_drop t.index client key ((t.bucket i).remove key).result.2

/-- To write a batch and to `takeKeys` of a client can be done in any order (`state_each_comm`). -/
theorem writeMany_takeKeys (t : Table) (client : String) (pairs : List (String × String)) :
    ((t.takeKeys client).2.writeMany pairs).state =
      ((t.writeMany pairs).state.takeKeys client).2 := by
  rw [writeMany_eq_each, writeMany_eq_each]
  exact Effect.state_each_comm (f := writePair) (p := fun _ => True) (fun _ _ _ => trivial)
    (fun pair u _ => u.write_takeKeys client pair.1 pair.2) _ trivial

/-- To delete a batch and to `takeKeys` of a client can be done in any order (`state_each_comm`). -/
theorem deleteMany_takeKeys (t : Table) (client : String) (keys : List String) :
    ((t.takeKeys client).2.deleteMany keys).state =
      ((t.deleteMany keys).state.takeKeys client).2 := by
  rw [deleteMany_eq_each, deleteMany_eq_each]
  exact Effect.state_each_comm (f := deleteKey) (p := fun _ => True) (fun _ _ _ => trivial)
    (fun key u _ => u.delete_takeKeys client key) _ trivial

/-- Others `subscribe` in the table without the client's part of the index with the same result as
in the whole table, and the part may be taken out afterwards. -/
theorem subscribe_takeKeys (t : Table) (hne : other ≠ client) (key : String) (channel : ChannelId) :
    (t.takeKeys client).2.subscribe key other channel =
      (t.subscribe key other channel).map fun done => (done.1, (done.2.takeKeys client).2) := by
  unfold subscribe
  cases route key with
  | none => rfl
  | some i =>
    refine congrArg (fun after => Except.ok (_, after)) (ext_bucket (fun j => rfl) ?_)
    exact t.index.drop_insert hne key

/-- Anybody may `unsubscribe` before or after `takeKeys` of a client: the tables are the same. -/
theorem unsubscribe_takeKeys (t : Table) (client key other : String) :
    ((t.takeKeys client).2.unsubscribe key other).2 =
      ((t.unsubscribe key other).2.takeKeys client).2 := by
  unfold unsubscribe
  cases route key with
  | none => rfl
  | some i =>
    simp only
    have hbucket : (t.takeKeys client).2.bucket i = t.bucket i := rfl
    rw [hbucket]
    split
    case isTrue => exact ext_bucket (fun j => rfl) (t.index.drop_remove client other key)
    case isFalse => rfl

/-- Anybody may be dropped from a key before or after `takeKeys` of a client: the tables are the
same. -/
theorem unlinkKey_takeKeys (t : Table) (client other key : String) :
    (unlinkKey other key (t.takeKeys client).2).state =
      ((unlinkKey other key t).state.takeKeys client).2 := by
  unfold unlinkKey
  cases route key with
  | none => rfl
  | some i => rfl

/-- Others may leave by `removeAll` before or after `takeKeys` of a client: the tables are the
same. -/
theorem removeAll_takeKeys (t : Table) (hne : other ≠ client) :
    ((t.takeKeys client).2.removeAll other).2 = ((t.removeAll other).2.takeKeys client).2 := by
  have hkeys : (t.takeKeys client).2.keysOf other = t.keysOf other := by
    show (t.index.drop client).keysOf other = t.index.keysOf other
    rw [ClientIndex.keysOf, ClientIndex.keySet_drop, if_neg hne, ClientIndex.keysOf]
  have htake :
      ((t.takeKeys client).2.takeKeys other).2 = ((t.takeKeys other).2.takeKeys client).2 :=
    ext_bucket (fun j => rfl) (t.index.drop_drop client other)
  rw [removeAll_eq, removeAll_eq, hkeys, htake]
  exact Effect.state_each_comm (f := unlinkKey other) (p := fun _ => True) (fun _ _ _ => trivial)
    (fun key u _ => u.unlinkKey_takeKeys client other key) _ trivial

end Table

namespace Operation

variable {client : String} {op : Operation}

/-- The table after operations one after another (`onTable`), without the store around it. -/
def tableAfter (ops : List Operation) (t : Table) : Table := ops.foldl onTable t

/-- What a row of operations makes of the table does not depend on the channels: it is
`tableAfter`. -/
theorem table_runAll (e : Engine) (ops : List Operation) :
    (runAll ops e).table = tableAfter ops e.table := by
  induction ops generalizing e with
  | nil => rfl
  | cons op rest ih =>
    show (runAll rest (op.run e)).table = tableAfter rest (op.onTable e.table)
    rw [ih, table_run]

/-- An operation of others does on the table without the client's part of the index what it does on
the whole table, with the part taken out afterwards (`takeKeys`). -/
theorem onTable_takeKeys (h : op.isOf client = false) (t : Table) :
    op.onTable (t.takeKeys client).2 = ((op.onTable t).takeKeys client).2 := by
  cases op with
  | write key value => exact t.write_takeKeys client key value
  | writeMany pairs => exact t.writeMany_takeKeys client pairs
  | delete key => exact t.delete_takeKeys client key
  | deleteMany keys => exact t.deleteMany_takeKeys client keys
  | subscribe key other channel =>
    simp only [onTable, t.subscribe_takeKeys (beq_eq_false_iff_ne.1 h)]
    cases t.subscribe key other channel with
    | ok done => rfl
    | error fault => rfl
  | unsubscribe key other => exact t.unsubscribe_takeKeys client key other
  | removeAll other => exact t.removeAll_takeKeys (beq_eq_false_iff_ne.1 h)
  | openChannel | closeChannel => rfl

/-- An operation of others does on the table that the client leaves behind (`without`) what it does
on the table with the client. -/
theorem onTable_without (h : op.isOf client = false) {t : Table} (ht : t.Consistent) :
    op.onTable (t.without client) = (op.onTable t).without client := by
  cases op with
  | write key value => exact ht.state_write_without client key value
  | writeMany pairs => exact ht.state_writeMany_without client pairs
  | delete key => exact ht.state_delete_without client key
  | deleteMany keys => exact ht.state_deleteMany_without client keys
  | subscribe key other channel =>
    simp only [onTable, ht.subscribe_without (beq_eq_false_iff_ne.1 h)]
    cases t.subscribe key other channel with
    | ok done => rfl
    | error fault => rfl
  | unsubscribe key other =>
    exact congrArg Prod.snd (ht.unsubscribe_without (beq_eq_false_iff_ne.1 h) key)
  | removeAll other =>
    show ((t.without client).removeAll other).2 = (t.removeAll other).2.without client
    rw [ht.removeAll_without (beq_eq_false_iff_ne.1 h)]
  | openChannel | closeChannel => rfl

/-- An operation of others does not subscribe the client: where it stands behind the operation it
stood before. -/
theorem mem_clients_onTable (h : op.isOf client = false) {t : Table} (ht : t.Consistent)
    {key : String} (hmem : client ∈ ((op.onTable t).listOf key).clients) :
    client ∈ (t.listOf key).clients := by
  cases op with
  | write | writeMany | delete | deleteMany =>
    obtain ⟨sub, hsub, rfl⟩ := List.mem_map.1 hmem
    exact List.mem_map_of_mem (mem_listOf_onTable rfl hsub)
  | openChannel | closeChannel => exact hmem
  | subscribe k other channel =>
    simp only [onTable] at hmem
    split at hmem
    case h_2 => exact hmem
    case h_1 outcome after hs =>
      rw [Table.listOf_of_subscribe hs] at hmem
      split at hmem
      case isFalse => exact hmem
      case isTrue hk =>
        rw [SubscriberList.clients_add] at hmem
        split at hmem
        case isTrue => exact hk ▸ hmem
        case isFalse =>
          rcases List.mem_append.1 hmem with hold | hnew
          · exact hk ▸ hold
          · exact absurd (List.mem_singleton.1 hnew).symm (beq_eq_false_iff_ne.1 h)
  | unsubscribe k other =>
    rw [onTable, Table.listOf_unsubscribe] at hmem
    split at hmem
    case isTrue hk => exact hk ▸ (SubscriberList.mem_clients_remove.1 hmem).1
    case isFalse => exact hmem
  | removeAll other =>
    rw [onTable, Table.listOf_removeAll ht] at hmem
    exact (SubscriberList.mem_clients_remove.1 hmem).1

end Operation

namespace Table.Consistent

open Operation

variable {client : String} {ops : List Operation} {t : Table}

/-- Every row of operations keeps a table consistent (`onTable`). -/
theorem tableAfter (h : t.Consistent) (ops : List Operation) :
    (Operation.tableAfter ops t).Consistent := by
  induction ops generalizing t with
  | nil => exact h
  | cons op rest ih => exact ih (h.onTable op)

/-- The keys of the client grow no more in a row of operations of others, so the keys taken at the
beginning cover those at the end. -/
theorem mem_keysOf_tableAfter (h : t.Consistent) (hops : ∀ op ∈ ops, op.isOf client = false)
    {key : String} (hkey : key ∈ (Operation.tableAfter ops t).keysOf client) :
    key ∈ t.keysOf client := by
  induction ops generalizing t with
  | nil => exact hkey
  | cons op rest ih =>
    have hafter := ih (h.onTable op) (fun o ho => hops o (List.mem_cons_of_mem op ho)) hkey
    rw [Table.keysOf, ClientIndex.mem_keysOf, ← (h.onTable op).mem_listOf_iff] at hafter
    rw [Table.keysOf, ClientIndex.mem_keysOf, ← h.mem_listOf_iff]
    exact mem_clients_onTable (hops op List.mem_cons_self) h hafter

/-- Others do in a row on the table that the client leaves behind what they do on the table with the
client (`onTable_without`). -/
theorem tableAfter_without (h : t.Consistent) (hops : ∀ op ∈ ops, op.isOf client = false) :
    Operation.tableAfter ops (t.without client) =
      (Operation.tableAfter ops t).without client := by
  induction ops generalizing t with
  | nil => rfl
  | cons op rest ih =>
    show Operation.tableAfter rest (op.onTable (t.without client)) = _
    rw [onTable_without (hops op List.mem_cons_self) h]
    exact ih (h.onTable op) fun o ho => hops o (List.mem_cons_of_mem op ho)

end Table.Consistent

/-- Others do in a row on the table without the client's part of the index what they do on the whole
table (`onTable_takeKeys`). -/
theorem Operation.tableAfter_takeKeys {client : String} {ops : List Operation}
    (hops : ∀ op ∈ ops, op.isOf client = false) (t : Table) :
    tableAfter ops (t.takeKeys client).2 = ((tableAfter ops t).takeKeys client).2 := by
  induction ops generalizing t with
  | nil => rfl
  | cons op rest ih =>
    show tableAfter rest (op.onTable (t.takeKeys client).2) = _
    rw [onTable_takeKeys (hops op List.mem_cons_self)]
    exact ih (fun o ho => hops o (List.mem_cons_of_mem op ho)) (op.onTable t)

/-! ## The two steps -/

/-- The table of a store on which a client leaves in two steps, with operations of others between
`takeKeys` and `unlink`. -/
def Engine.removeAllSplit (e : Engine) (client : String) (ops : List Operation) : Table :=
  let (keys, t) := e.table.takeKeys client
  ((Operation.runAll ops { e with table := t }).table.unlink client keys).2

/-- Whatever others do between the two steps in which a client leaves (`removeAllSplit`), the table
is in the end the one that it is if the client leaves at once, be it before or after: the same
entries, the same lists and the same index. The client is in no list and not in the index, and lists
and index agree. -/
theorem removeAll_split (e : Engine) (h : e.table.Consistent) {client : String}
    {ops : List Operation} (hops : ∀ op ∈ ops, op.isOf client = false) :
    e.removeAllSplit client ops = (Operation.runAll ops (e.removeAll client).2).table ∧
      e.removeAllSplit client ops = ((Operation.runAll ops e).removeAll client).2.table ∧
      (e.removeAllSplit client ops).Consistent ∧
      (∀ key, client ∉ (e.removeAllSplit client ops).subscribersOf key) ∧
      (e.removeAllSplit client ops).index.keySets.find? client = none := by
  have hafter : (Operation.runAll ops e).table = Operation.tableAfter ops e.table :=
    Operation.table_runAll e ops
  have hconsistent : (Operation.tableAfter ops e.table).Consistent := h.tableAfter ops
  -- the gap takes the client's part from the index of the table that the operations lead to
  have hgap : (Operation.runAll ops { e with table := (e.table.takeKeys client).2 }).table =
      ((Operation.tableAfter ops e.table).takeKeys client).2 := by
    rw [Operation.table_runAll]
    exact Operation.tableAfter_takeKeys hops e.table
  have hsplit : e.removeAllSplit client ops =
      (Operation.tableAfter ops e.table).without client := by
    show ((Operation.runAll ops { e with table := (e.table.takeKeys client).2 }).table.unlink client
      (e.table.keysOf client)).2 = _
    rw [hgap]
    exact hconsistent.unlink_eq_without fun key => h.mem_keysOf_tableAfter hops
  refine ⟨?_, ?_, ?_, fun key => ?_, ?_⟩
  · rw [hsplit, Operation.table_runAll]
    exact (h.tableAfter_without hops).symm
  · rw [hsplit, Engine.table_removeAll, hafter]
    rfl
  · rw [hsplit]
    exact hconsistent.without client
  · rw [hsplit, Table.subscribersOf_eq, hconsistent.listOf_without]
    exact fun hmem => (SubscriberList.mem_clients_remove.1 hmem).2 rfl
  · rw [hsplit, Table.without, Table.index_removeAll, ClientIndex.find?_drop, if_pos rfl]

/-- A store on which two clients watch a key and one of them another key besides. -/
def sharedKey : Engine :=
  Operation.runAll
    [.openChannel {}, .openChannel {}, .write "k" "v", .write "m" "w", .subscribe "k" "a" 0,
      .subscribe "k" "b" 1, .subscribe "m" "a" 0]
    { Engine.ofFiles 1 .bare with table := .empty }

/-- The second client of `sharedKey` deletes the key of both, writes it again and comes back to it,
and comes to the other key and leaves it to the first client. -/
def comesBack : List Operation :=
  [.delete "k", .write "k" "x", .subscribe "k" "b" 1, .subscribe "m" "b" 1, .unsubscribe "m" "b"]

/-- While the first client of `sharedKey` leaves, the index does not have it and the list of a key
does. What the second client did meanwhile (`comesBack`) stands in the end. -/
theorem removeAll_split_comesBack :
    sharedKey.table.Consistent ∧ (∀ op ∈ comesBack, op.isOf "a" = false) ∧
      (sharedKey.table.takeKeys "a").2.subscribersOf "m" = ["a"] ∧
      (sharedKey.table.takeKeys "a").2.index.contains "a" "m" = false ∧
      sharedKey.removeAllSplit "a" comesBack =
        (Operation.runAll comesBack (sharedKey.removeAll "a").2).table ∧
      sharedKey.removeAllSplit "a" comesBack =
        ((Operation.runAll comesBack sharedKey).removeAll "a").2.table ∧
      (sharedKey.removeAllSplit "a" comesBack).subscribersOf "k" = ["b"] ∧
      (sharedKey.removeAllSplit "a" comesBack).subscribersOf "m" = [] := by
  have hconsistent : sharedKey.table.Consistent := consistent_runAll (.ofFiles 1 .bare) _
  have hothers : ∀ op ∈ comesBack, op.isOf "a" = false := by decide +kernel
  obtain ⟨hbefore, hafter, -⟩ := removeAll_split sharedKey hconsistent hothers
  refine ⟨hconsistent, hothers, ?_, ?_, hbefore, hafter, ?_, ?_⟩
  · decide +kernel
  · decide +kernel
  · decide +kernel
  · decide +kernel

end KeyWatch
