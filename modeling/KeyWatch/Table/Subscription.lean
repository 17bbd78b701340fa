import KeyWatch.Error
import KeyWatch.Table.Batch

/-!
# Subscriptions

A client subscribes to a key on a channel, and from then on the channel is told of every write of
the key. It need not have an entry. The subscription ends when the client ends it, when the key is
deleted, or when the client leaves, and then it is gone from the key's bucket and from the index of
clients alike.

A client that leaves is dropped in two steps: its keys are taken from the index, and then it is
dropped from their buckets, which are held together (`Table.removeAll`).
-/

namespace KeyWatch

/-- How a subscription went (`Table.subscribe`): the key has an entry and the client is new to it,
or was subscribed already; or the key has no entry yet. -/
inductive SubscribeOutcome where
  | subscribed
  | alreadySubscribed
  | keyNotFound
  deriving DecidableEq, Repr

/-- How the end of a subscription went (`Table.unsubscribe`): it was there, or it was not. -/
inductive UnsubscribeOutcome where
  | removed
  | notSubscribed
  deriving DecidableEq, Repr

/-- What a client is answered. A subscription to a key without entry is made, but failed is said.
Operation: `result_code`. -/
def SubscribeOutcome.code : SubscribeOutcome → ResultCode
  | subscribed | alreadySubscribed => .ok
  | keyNotFound => .failed

/-- What a client is answered: failed, if there was no subscription to end. Operation:
`result_code`. -/
def UnsubscribeOutcome.code : UnsubscribeOutcome → ResultCode
  | removed => .ok
  | notSubscribed => .failed

namespace Table

/-- Subscribes a client to a key on a channel, in the key's bucket and in the index. A client that
is subscribed already changes its channel. A key without bucket is an error. Operation:
`subscribe`. -/
def subscribe (t : Table) (key client : String) (channel : ChannelId) :
    Except Error (SubscribeOutcome × Table) :=
  match route key with
  | none => .error (.invalidKey key)
  | some i =>
    let b := t.bucket i
    let outcome :=
      if !b.contains key then .keyNotFound
      else if b.isSubscribed key client then .alreadySubscribed
      else .subscribed
    .ok (outcome,
      { t.setBucket i (b.subscribe key ⟨client, channel⟩) with index := t.index.insert client key })

/-- Ends a client's subscription to a key, in the key's bucket and in the index; without one nothing
changes. Operation: `unsubscribe`. -/
def unsubscribe (t : Table) (key client : String) : UnsubscribeOutcome × Table :=
  match route key with
  | none => (.notSubscribed, t)
  | some i =>
    let b := t.bucket i
    if b.isSubscribed key client then
      (.removed,
        { t.setBucket i (b.unsubscribe key client) with index := t.index.remove client key })
    else (.notSubscribed, t)

/-- Takes a client's keys from the index and gives them, the first step of `Table.removeAll`.
Operation: `take` of the index. -/
def takeKeys (t : Table) (client : String) : List String × Table :=
  (t.index.keysOf client, { t with index := t.index.drop client })

/-- Drops a client from the subscribers of some keys (`Holding.unlink`), the second step of
`Table.removeAll`, and counts where it was among them. -/
def unlink (t : Table) (client : String) (keys : List String) : Nat × Table :=
  let dropped := (Effect.each (Holding.unlink client) keys (t.hold keys)).within t.release
  (dropped.result.count true, dropped.state)

/-- Ends every subscription of a client and counts them: its keys are taken from the index
(`Table.takeKeys`), and then it is dropped from their buckets (`Table.unlink`). Operation:
`remove_all`. -/
def removeAll (t : Table) (client : String) : Nat × Table :=
  let (keys, t) := t.takeKeys client
  t.unlink client keys

/-- The keys that a client watches, ascending, by the index. Operation: `keys_of`. -/
def keysOf (t : Table) (client : String) : List String := t.index.keysOf client

/-- The channels on which clients listen, by bucket and then by key, each as often as it is listened
on. -/
def channels (t : Table) : List ChannelId :=
  (t.buckets.toList.flatMap fun b => b.subscribers.bindings).flatMap
    fun (_, subscribers) => subscribers.channels

/-- The channels on which a client listens for some keys, key by key, which are those it lets go
when it leaves them. -/
def channelsOf (t : Table) (client : String) (keys : List String) : List ChannelId :=
  keys.filterMap fun key => do
    let i ← route key
    ((t.bucket i).subscribersOf key).channelOf? client

/-- Whether a client watches a key, by the index. Operation: `is_subscribed`. -/
def isSubscribed (t : Table) (client key : String) : Bool := t.index.contains client key

end Table

end KeyWatch
