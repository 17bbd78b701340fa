import KeyWatch.Channel

/-!
# Names of channels, and channels that nobody holds

A channel may be given a name, and a name that is given again is taken from the channel that had it
(`ChannelNames`). A channel is held by its name, by the subscribers that listen on it and by the
client whose it is. One that nobody holds any more can never be sent on again, so it is closed, and
the bytes it holds back leave it (`Channels.settle`): of the channels of a row those are closed that
are not held, and all others are as they were (`Channels.sink?_letGo`).
-/

namespace KeyWatch

/-- The names that channels were given, the last given first. A name belongs to the channel that got
it last (`ChannelNames.find?`). -/
structure ChannelNames where
  given : List (String × ChannelId)
  deriving DecidableEq, Repr

namespace ChannelNames

/-- No names, so no channel is held by one. -/
def empty : ChannelNames := ⟨[]⟩

/-- The names with one given to a channel, which takes it from the channel that had it. -/
def give (names : ChannelNames) (name : String) (id : ChannelId) : ChannelNames :=
  ⟨(name, id) :: names.given⟩

/-- The channel of a name, which is the one that got it last. -/
def find? (names : ChannelNames) (name : String) : Option ChannelId := names.given.lookup name

/-- The last name that a channel was given, be it taken from it or not. -/
def nameOf (names : ChannelNames) (id : ChannelId) : String :=
  match names.given.find? (·.2 == id) with
  | some (name, _) => name
  | none => "?"

/-- The channels that have a name, that is, got it last (`ChannelNames.find?`). -/
def held (names : ChannelNames) : List ChannelId :=
  (names.given.filter fun (name, id) => names.find? name == some id).map (·.2)

end ChannelNames

namespace Channels

/-- Closes those channels of a list that are not `held`, one after another (`Channels.close`), and
gives what leaves them. -/
def letGo (held : List ChannelId) : List ChannelId → Channels → List Emission × Channels
  | [], cs => ([], cs)
  | id :: rest, cs =>
    if held.contains id then letGo held rest cs
    else
      let (out, cs) := cs.close id
      let (more, cs) := letGo held rest cs
      (out ++ more, cs)

/-- Closes every channel that is not `held` (`Channels.letGo`): first those that were held before,
by the order in which their last holders stand, and then the others. -/
def settle (before held : List ChannelId) (cs : Channels) : List Emission × Channels :=
  cs.letGo held (before.reverse.eraseDups.reverse ++ List.range cs.sinks.length)

/-- A channel that is closed by `close` has no sink, and every other has its own. -/
theorem sink?_close (cs : Channels) (id j : ChannelId) :
    (cs.close id).2.sink? j = if j = id then none else cs.sink? j := by
  unfold close
  split
  case h_1 h =>
    split
    case isTrue hj => rw [hj, h]
    case isFalse => rfl
  case h_2 =>
    simp only [sink?, setSink, List.getElem?_set]
    by_cases h : id = j
    · subst h
      by_cases hl : id < cs.sinks.length <;> simp [hl]
    · simp [h, Ne.symm h]

/-- Behind `letGo` a channel of the list that is not held has no sink, and every other channel has
its own. -/
theorem sink?_letGo (held ids : List ChannelId) (cs : Channels) (j : ChannelId) :
    (cs.letGo held ids).2.sink? j =
      if j ∈ ids ∧ j ∉ held then none else cs.sink? j := by
  induction ids generalizing cs with
  | nil => simp [letGo]
  | cons id rest ih =>
    rw [letGo]
    split
    case isTrue h =>
      have hmem : id ∈ held := by simpa using h
      rw [ih]
      by_cases hj : j = id
      · subst hj
        simp [hmem]
      · simp [hj]
    case isFalse h =>
      have hmem : id ∉ held := by simpa using h
      simp only [ih, sink?_close]
      by_cases hj : j = id
      · subst hj
        simp [hmem]
      · simp [hj]

end Channels

end KeyWatch
