import KeyWatch.Engine
import KeyWatch.Proofs.Table.Consistent

/-!
# Operations on the store

What jobs and clients do to a store, as data (`Operation`), and what a row of operations makes of it
(`Operation.runAll`). The table goes its own way: what becomes of it is the same whatever state the
channels are in (`Operation.table_run`). So the lists of subscribers and the index agree after every
run from an empty table, though channels be closed or fail on the way (`consistent_runAll`).
-/

namespace KeyWatch

/-- An operation on the table, on the subscriptions or on the channels of a store, as jobs and
clients make them one after another. -/
inductive Operation where
  | write (key value : String)
  | writeMany (pairs : List (String × String))
  | delete (key : String)
  | deleteMany (keys : List String)
  | subscribe (key client : String) (channel : ChannelId)
  | unsubscribe (key client : String)
  | removeAll (client : String)
  | openChannel (sink : Sink)
  | closeChannel (channel : ChannelId)

namespace Operation

/-- The store after an operation; a subscription that is refused changes nothing. -/
def run (e : Engine) : Operation → Engine
  | write key value => (e.apply (·.write key value)).2
  | writeMany pairs => (e.apply (·.writeMany pairs)).2
  | delete key => (e.apply (·.delete key)).2
  | deleteMany keys => (e.apply (·.deleteMany keys)).2
  | subscribe key client channel =>
    match e.subscribe key client channel with
    | .ok (_, after) => after
    | .error _ => e
  | unsubscribe key client => (e.unsubscribe key client).2
  | removeAll client => (e.removeAll client).2
  | openChannel sink => (e.openChannel sink).2
  | closeChannel channel => e.closeChannel channel

/-- The store after operations one after another (`Operation.run`). -/
def runAll (ops : List Operation) (e : Engine) : Engine := ops.foldl run e

/-- The table after an operation, without the store around it (`table_run`). -/
def onTable (t : Table) : Operation → Table
  | write key value => (t.write key value).state
  | writeMany pairs => (t.writeMany pairs).state
  | delete key => (t.delete key).state
  | deleteMany keys => (t.deleteMany keys).state
  | subscribe key client channel =>
    match t.subscribe key client channel with
    | .ok (_, after) => after
    | .error _ => t
  | unsubscribe key client => (t.unsubscribe key client).2
  | removeAll client => (t.removeAll client).2
  | openChannel _ | closeChannel _ => t

/-- What an operation makes of the table does not depend on the channels: it is what `onTable`
says. -/
theorem table_run (e : Engine) (op : Operation) : (op.run e).table = op.onTable e.table := by
  cases op with
  | write | writeMany | delete | deleteMany => exact Engine.table_apply e _
  | unsubscribe | removeAll | openChannel => rfl
  | closeChannel channel => exact Engine.table_closeChannel e channel
  | subscribe key client channel =>
    simp only [run, onTable]
    cases hs : e.subscribe key client channel with
    | ok done =>
      obtain ⟨outcome, after⟩ := done
      obtain ⟨table, ht, rfl⟩ := Engine.subscribe_eq_ok hs
      rw [ht]
    | error fault =>
      cases ht : e.table.subscribe key client channel with
      | error _ => rfl
      | ok done => simp [Engine.subscribe, ht, Except.map] at hs

/-- Whether an operation is one on entries, and not on subscriptions or channels. -/
def isOnEntries : Operation → Bool
  | write .. | writeMany .. | delete .. | deleteMany .. => true
  | _ => false

/-- An operation on entries (`isOnEntries`) subscribes nobody: who is in a list behind it was there
before. -/
theorem mem_listOf_onTable {t : Table} {op : Operation} (h : op.isOnEntries = true) {key : String}
    {sub : Subscriber} (hsub : sub ∈ ((op.onTable t).listOf key).subscribers) :
    sub ∈ (t.listOf key).subscribers := by
  cases op with
  | subscribe | unsubscribe | removeAll | openChannel | closeChannel => cases h
  | write k v => exact (Table.listOf_write t k v key) ▸ hsub
  | writeMany pairs => exact (Table.listOf_writeMany t pairs key) ▸ hsub
  | delete k => exact Table.mem_listOf_of_delete hsub
  | deleteMany keys => exact Table.mem_listOf_of_deleteMany hsub

/-- An operation on entries (`isOnEntries`) opens and closes no channel. -/
theorem isClosed_run {op : Operation} (h : op.isOnEntries = true) (e : Engine) (id : ChannelId) :
    (op.run e).channels.isClosed id = e.channels.isClosed id := by
  cases op with
  | subscribe | unsubscribe | removeAll | openChannel | closeChannel => cases h
  | write | delete | writeMany | deleteMany => exact Engine.isClosed_apply e _ id

end Operation

namespace Table.Consistent

/-- Every operation keeps the lists and the index in step: a consistent table stays so. -/
theorem onTable {t : Table} (h : t.Consistent) (op : Operation) : (op.onTable t).Consistent := by
  cases op with
  | write key value => exact h.write key value
  | writeMany pairs => exact h.writeMany pairs
  | delete key => exact h.delete key
  | deleteMany keys => exact h.deleteMany keys
  | unsubscribe key client => exact h.unsubscribe key client
  | removeAll client => exact h.removeAll client
  | openChannel | closeChannel => exact h
  | subscribe key client channel =>
    simp only [Operation.onTable]
    split
    case h_1 _ _ hs => exact h.subscribe hs
    case h_2 => exact h

/-- Every row of operations keeps the lists and the index in step, by induction on the row. -/
theorem runAll {e : Engine} (h : e.table.Consistent) (ops : List Operation) :
    (Operation.runAll ops e).table.Consistent := by
  induction ops generalizing e with
  | nil => exact h
  | cons op rest ih =>
    refine ih (e := op.run e) ?_
    rw [Operation.table_run]
    exact h.onTable op

end Table.Consistent

/-- After every row of operations that begins with an empty table, whatever the channels are and
become, the lists of subscribers and the index are in good order and agree (`Table.Consistent`). -/
theorem consistent_runAll (e : Engine) (ops : List Operation) :
    (Operation.runAll ops { e with table := .empty }).table.Consistent :=
  Table.Consistent.runAll Table.Consistent.empty ops

end KeyWatch
