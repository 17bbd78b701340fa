import KeyWatch.Table.Effect

/-!
# Clients

A client is a record of its id, its notification channel and its state. A record is known by its
handle, so two clients of one id are told apart, and it stays when the client is gone. The roster
lists the clients that are present, in the order in which they came; no two of them have one id
(`Roster.insert`).
-/

namespace KeyWatch

/-- The life of a client: it waits to be served, is served, is being dropped, is gone
(`Server.setState`). -/
inductive ClientState where
  | registered
  | active
  | disconnecting
  | closed
  deriving DecidableEq, Repr

/-- A client: its id, the channel on which it is told of changes, and its state. Operation: `new` of
a client. -/
structure ClientRecord where
  id : String
  channel : ChannelId
  state : ClientState
  deriving DecidableEq, Repr

/-- Whether a client waits or is served, and so is neither being dropped nor gone. Operation:
`is_active`. -/
def ClientRecord.isActive (c : ClientRecord) : Bool :=
  c.state == .registered || c.state == .active

/-- The number of a client's record, by which two clients of one id are told apart. -/
abbrev ClientHandle := Nat

/-- The records of all clients by handle, and the handles of those that are present, in the order in
which they came. -/
structure Roster where
  records : List ClientRecord
  present : List ClientHandle
  deriving DecidableEq, Repr

namespace Roster

/-- The roster without clients, with which a server starts. -/
def empty : Roster := ⟨[], []⟩

/-- The record of a handle, which stays when the client is gone, or `none` for a handle of
nobody. -/
def record? (r : Roster) (h : ClientHandle) : Option ClientRecord := r.records[h]?

/-- The id of a handle's client, as its record holds it. -/
def idOf (r : Roster) (h : ClientHandle) : String :=
  match r.record? h with
  | some c => c.id
  | none => ""

/-- Whether a handle is that of a client with an id. -/
def hasId (r : Roster) (id : String) (h : ClientHandle) : Bool := (r.record? h).any (·.id == id)

/-- The handle of the client of an id, if it is present. Operation: `find`. -/
def find? (r : Roster) (id : String) : Option ClientHandle := r.present.find? (r.hasId id)

/-- Whether the client of an id is present (`Roster.find?`). Operation: `contains`. -/
def contains (r : Roster) (id : String) : Bool := (r.find? id).isSome

/-- The ids of the clients present, in the order in which they came. Operation: `ids`. -/
def ids (r : Roster) : List String := r.present.map r.idOf

/-- A record for a new client, which is not present until `Roster.insert` makes it so. -/
def add (r : Roster) (id : String) (channel : ChannelId) : ClientHandle × Roster :=
  (r.records.length, { r with records := r.records ++ [⟨id, channel, .registered⟩] })

/-- Makes a client present, unless one of its id is, and says whether it did. Operation:
`insert`. -/
def insert (r : Roster) (h : ClientHandle) : Bool × Roster :=
  if r.contains (r.idOf h) then (false, r) else (true, { r with present := r.present ++ [h] })

/-- The roster without a client; another of the same id stays, since the client is known by its
handle. Operation: `detach`. -/
def detach (r : Roster) (h : ClientHandle) : Roster :=
  { r with present := r.present.filter (· != h) }

/-- The roster without the client of an id, whichever that is, and its handle. Operation:
`remove`. -/
def remove (r : Roster) (id : String) : Option ClientHandle × Roster :=
  match r.find? id with
  | some h => (some h, r.detach h)
  | none => (none, r)

/-- The state of a client, as its record holds it. Operation: `state`. -/
def stateOf (r : Roster) (h : ClientHandle) : Option ClientState :=
  (r.record? h).map ClientRecord.state

/-- The roster with the state of a client changed. Operation: `set_state`. -/
def setState (r : Roster) (h : ClientHandle) (state : ClientState) : Roster :=
  { r with records := r.records.modify h fun c => { c with state } }

/-! ## Records of a changed roster -/

/-- Behind `setState` the record of the client has the new state, and every other record is as it
was. -/
@[simp] theorem record?_setState (r : Roster) (h : ClientHandle) (state : ClientState)
    (j : ClientHandle) :
    (r.setState h state).record? j =
      if j = h then (r.record? h).map ({ · with state }) else r.record? j := by
  simp only [record?, setState, List.getElem?_modify]
  by_cases hj : h = j
  · subst hj
    simp
  · simp [hj, Ne.symm hj]

/-- Behind `setState` a client that has a record has it with the new state. -/
theorem record?_setState_self {r : Roster} {h : ClientHandle} {c : ClientRecord}
    (hc : r.record? h = some c) (state : ClientState) :
    (r.setState h state).record? h = some { c with state } := by
  rw [record?_setState, if_pos rfl, hc]
  rfl

/-- Behind `setState` the record of another client is as it was. -/
theorem record?_setState_of_ne {r : Roster} {h j : ClientHandle} (hne : j ≠ h)
    (state : ClientState) : (r.setState h state).record? j = r.record? j := by
  rw [record?_setState, if_neg hne]

/-- To `setState` of a client makes nobody present or absent. -/
@[simp] theorem present_setState (r : Roster) (h : ClientHandle) (state : ClientState) :
    (r.setState h state).present = r.present := rfl

/-- To `setState` of a client leaves the `ids` of those present as they are. -/
@[simp] theorem ids_setState (r : Roster) (h : ClientHandle) (state : ClientState) :
    (r.setState h state).ids = r.ids := by
  unfold ids idOf
  refine List.map_congr_left fun j _ => ?_
  rw [record?_setState]
  by_cases hj : j = h
  · subst hj
    cases r.record? j <;> simp
  · rw [if_neg hj]

/-- The id of a client is read off its record, so rosters with the same record agree on it. -/
theorem idOf_congr {r after : Roster} {h : ClientHandle} (hsame : after.record? h = r.record? h) :
    after.idOf h = r.idOf h := by
  rw [idOf, idOf, hsame]

/-- Behind `add` the next handle has the new record, and every other handle has its own. -/
theorem record?_add (r : Roster) (id : String) (channel : ChannelId) (j : ClientHandle) :
    (r.add id channel).2.record? j =
      if j = r.records.length then some ⟨id, channel, .registered⟩ else r.record? j := by
  simp only [record?, add, List.getElem?_append]
  split
  case isTrue hlt => rw [if_neg (Nat.ne_of_lt hlt)]
  case isFalse hle =>
    by_cases hj : j = r.records.length
    · simp [hj]
    · have hgt : r.records.length < j := Nat.lt_of_le_of_ne (Nat.not_lt.1 hle) (Ne.symm hj)
      rw [if_neg hj, List.getElem?_eq_none (Nat.le_of_lt hgt), List.getElem?_eq_none]
      rw [List.length_singleton]
      omega

/-- A handle with a record is not the one that `add` gives next. -/
theorem ne_length_of_record? {r : Roster} {h : ClientHandle} {c : ClientRecord}
    (hc : r.record? h = some c) : h ≠ r.records.length := by
  obtain ⟨hlt, -⟩ := List.getElem?_eq_some_iff.1 hc
  exact Nat.ne_of_lt hlt

/-- A client that is made present by `insert` comes last, and none of those who were present has its
id. -/
theorem of_insert {r after : Roster} {h : ClientHandle} (hinsert : r.insert h = (true, after)) :
    after = { r with present := r.present ++ [h] } ∧
      ∀ j ∈ r.present, ∀ c, r.record? j = some c → c.id ≠ r.idOf h := by
  unfold insert at hinsert
  split at hinsert
  case isTrue => cases hinsert
  case isFalse hfree =>
    cases hinsert
    refine ⟨rfl, fun j hj c hc hid => hfree ?_⟩
    rw [contains, find?, List.find?_isSome]
    exact ⟨j, hj, by simp [hasId, hc, hid]⟩

/-- To `detach` a client leaves every record as it is. -/
@[simp] theorem record?_detach (r : Roster) (h j : ClientHandle) :
    (r.detach h).record? j = r.record? j := rfl

/-- Behind `detach` everybody is present who was, but for the one detached. -/
@[simp] theorem mem_present_detach {r : Roster} {h j : ClientHandle} :
    j ∈ (r.detach h).present ↔ j ∈ r.present ∧ j ≠ h := by
  simp [detach]

/-- Of two states that a client is given by `setState` the last counts. -/
@[simp] theorem setState_setState (r : Roster) (h : ClientHandle) (first last : ClientState) :
    (r.setState h first).setState h last = r.setState h last := by
  simp [setState, List.modify_modify_eq, Function.comp_def]

/-- A roster with a client more, present or absent: all others keep their records, and those who
were present are. -/
def Extends (r after : Roster) : Prop :=
  ∀ h, h ≠ r.records.length →
    after.record? h = r.record? h ∧ (h ∈ r.present → h ∈ after.present)

/-- A roster extends itself (`Extends`). -/
theorem Extends.refl (r : Roster) : r.Extends r := fun _ _ => ⟨rfl, fun hp => hp⟩

/-- To `add` a client and to `insert` it extends the roster, whose next handle it took. -/
theorem extends_insert {r after : Roster} {id : String} {channel : ChannelId}
    (hinsert : (r.add id channel).2.insert r.records.length = (true, after)) : r.Extends after := by
  obtain ⟨rfl, -⟩ := of_insert hinsert
  refine fun h hne => ⟨?_, List.mem_append_left _⟩
  exact (record?_add r id channel h).trans (if_neg hne)

/-- A roster with a client more still extends the one before when that client is detached. -/
theorem Extends.detach {r after : Roster} (h : r.Extends after) :
    r.Extends (after.detach r.records.length) := by
  refine fun j hne => ⟨(h j hne).1, fun hp => ?_⟩
  exact mem_present_detach.2 ⟨(h j hne).2 hp, hne⟩

/-- A client is present in some state (`stateOf`). -/
def PresentAs (r : Roster) (h : ClientHandle) (state : ClientState) : Prop :=
  h ∈ r.present ∧ r.stateOf h = some state

/-- The state of a client is that of its record. -/
theorem stateOf_of_record? {r : Roster} {h : ClientHandle} {c : ClientRecord}
    (hc : r.record? h = some c) : r.stateOf h = some c.state := by
  rw [stateOf, hc]
  rfl

/-- The id of a client is that of its record. -/
theorem idOf_of_record? {r : Roster} {h : ClientHandle} {c : ClientRecord}
    (hc : r.record? h = some c) : r.idOf h = c.id := by
  rw [idOf, hc]

/-- A client that is present in some state has a record, which has that state. -/
theorem PresentAs.record? {r : Roster} {h : ClientHandle} {state : ClientState}
    (hp : r.PresentAs h state) : ∃ c, r.record? h = some c ∧ c.state = state :=
  Option.map_eq_some_iff.1 hp.2

end Roster

end KeyWatch
