import KeyWatch.Wire.Notification

/-!
# Effects

What an operation on shared state does: its result, the notices it sends, in order, and the state
after it. Operations in a row are one operation (`Effect.each`), which sends the notices of the
first before those of the second.
-/

namespace KeyWatch

/-- The number of a notification channel (`Channels`). -/
abbrev ChannelId := Nat

/-- A notification on its way to a channel, as an operation of the table sends it.
`Channels.deliver` is what becomes of it. -/
structure Notice where
  channel : ChannelId
  notification : Notification
  deriving DecidableEq, Repr

/-- What an operation on a state of type `σ` does: its result, the notices it sends, in order, and
the state after it. -/
@[ext]
structure Effect (σ α : Type) where
  result : α
  notices : List Notice
  state : σ

namespace Effect

variable {σ τ κ α β : Type}

/-- An operation that changes nothing and sends no notices. -/
def pure (a : α) (s : σ) : Effect σ α := ⟨a, [], s⟩

/-- The effect with its result changed by `f`. -/
def map (f : α → β) (e : Effect σ α) : Effect σ β := ⟨f e.result, e.notices, e.state⟩

/-- The effect on a part of a state, seen as one on the whole that `f` makes of the part. -/
def within (f : σ → τ) (e : Effect σ α) : Effect τ α := ⟨e.result, e.notices, f e.state⟩

/-- One operation for each item of a list, one after another. The notices of the first come before
those of the second. -/
def each (f : κ → σ → Effect σ α) : List κ → σ → Effect σ (List α)
  | [], s => ⟨[], [], s⟩
  | k :: rest, s =>
    let first := f k s
    let more := each f rest first.state
    ⟨first.result :: more.result, first.notices ++ more.notices, more.state⟩

/-- A row of no operations has no results, sends no notices, and leaves the state as it is. -/
@[simp] theorem each_nil (f : κ → σ → Effect σ α) (s : σ) : each f [] s = ⟨[], [], s⟩ := rfl

/-- The effect of a row is that of its first operation and then that of the others on the state
after it (`each`). -/
theorem each_cons (f : κ → σ → Effect σ α) (k : κ) (rest : List κ) (s : σ) :
    each f (k :: rest) s =
      ⟨(f k s).result :: (each f rest (f k s).state).result,
        (f k s).notices ++ (each f rest (f k s).state).notices,
        (each f rest (f k s).state).state⟩ := rfl

/-- Two rows of operations that item by item send the same notices and lead to the same state do so
as rows. Their results may differ. -/
theorem each_map_congr {ι : Type} {f : κ → σ → Effect σ α} {g : ι → σ → Effect σ β} {name : κ → ι}
    (h : ∀ k s, (g (name k) s).notices = (f k s).notices ∧ (g (name k) s).state = (f k s).state)
    (l : List κ) (s : σ) :
    (each g (l.map name) s).notices = (each f l s).notices ∧
      (each g (l.map name) s).state = (each f l s).state := by
  induction l generalizing s with
  | nil => exact ⟨rfl, rfl⟩
  | cons k rest ih =>
    obtain ⟨hnotices, hstate⟩ := h k s
    obtain ⟨hmore, hend⟩ := ih (f k s).state
    rw [List.map_cons, each_cons, each_cons, hnotices, hstate]
    exact ⟨congrArg _ hmore, hend⟩

/-- A change `g` of the state that commutes with every operation of a row commutes with the row
(`each`), as long as the operations keep the condition `p` under which it does. -/
theorem state_each_comm {f : κ → σ → Effect σ α} {p : σ → Prop} {g : σ → σ}
    (hkeep : ∀ k s, p s → p (f k s).state)
    (hstep : ∀ k s, p s → (f k (g s)).state = g (f k s).state)
    (items : List κ) {s : σ} (h : p s) : (each f items (g s)).state = g (each f items s).state := by
  induction items generalizing s with
  | nil => rfl
  | cons k rest ih =>
    show (each f rest (f k (g s)).state).state = g (each f rest (f k s).state).state
    rw [hstep k s h]
    exact ih (hkeep k s h)

end Effect

end KeyWatch
