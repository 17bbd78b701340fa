import KeyWatch.Proofs.Notice.Delivery
import KeyWatch.Proofs.Store.Operation
import KeyWatch.Proofs.Table.Contents

/-!
# Batches on a store

A batch that a store is given is the row of single operations in key order, down to the bytes that
leave on the channels (`batch_eq_singles`): it has the same results, and it leaves the same table,
the same channels, the same files and the same lines. Of the two stores differ only the notes of
when subscribers may have let channels go (`Engine.AlikeButPartings`), since a batch takes the
notices of one key together.

On the table this is `Table.writeMany_eq_each`. What a store adds is the delivery of the notices,
which may be cut anywhere (`Engine.deliver_alike`, `Engine.tell_append`), so that the notices of a
row are delivered operation by operation (`Engine.apply_each`).

The order in which a batch was written down matters only among items of one key: in key order it is
the same batch (`Table.inKeyOrder_congr`). And the values that a batch of pairs leaves do not depend
on the order of the keys at all (`Table.read_each_writePair`).
-/

namespace KeyWatch

namespace Engine

/-! ## Delivery in parts -/

/-- Stores that differ in nothing but the notes of when subscribers let channels go
(`Engine.partings`). -/
structure AlikeButPartings (e d : Engine) : Prop where
  table : e.table = d.table
  channels : e.channels = d.channels
  files : e.files = d.files
  backups : e.backups = d.backups
  console : e.console = d.console
  sent : e.sent = d.sent

namespace AlikeButPartings

variable {e d c : Engine}

/-- A store is alike to itself (`AlikeButPartings`). -/
theorem refl (e : Engine) : e.AlikeButPartings e := ⟨rfl, rfl, rfl, rfl, rfl, rfl⟩

/-- Stores that are alike to a third are alike, by way of it. -/
theorem trans (h : e.AlikeButPartings d) (h' : d.AlikeButPartings c) : e.AlikeButPartings c :=
  ⟨h.table.trans h'.table, h.channels.trans h'.channels, h.files.trans h'.files,
    h.backups.trans h'.backups, h.console.trans h'.console, h.sent.trans h'.sent⟩

/-- Stores that are alike are so either way round. -/
theorem symm (h : e.AlikeButPartings d) : d.AlikeButPartings e :=
  ⟨h.table.symm, h.channels.symm, h.files.symm, h.backups.symm, h.console.symm, h.sent.symm⟩

/-- Stores stay alike when the same table is put into both. -/
theorem withTable (h : e.AlikeButPartings d) (table : Table) :
    AlikeButPartings { e with table } { d with table } :=
  { h with table := rfl }

/-- Stores that are alike stay so when the same bytes leave both by `emitAll`. -/
theorem emitAll (h : e.AlikeButPartings d) (out : List Emission) :
    (e.emitAll out).AlikeButPartings (d.emitAll out) := by
  obtain ⟨hfiles, hsent⟩ := emitAll_congr h.files h.sent out
  rw [emitAll_eq e, emitAll_eq d]
  exact ⟨h.table, h.channels, hfiles, h.backups, h.console, hsent⟩

/-- Stores that are alike send notices alike by `tell`, and stay so. -/
theorem tell (h : e.AlikeButPartings d) (notices : List Notice) :
    (e.tell notices).AlikeButPartings (d.tell notices) := by
  have hsame : AlikeButPartings
      { e with channels := (Channels.deliver notices d.channels).channels }
      { d with channels := (Channels.deliver notices d.channels).channels } :=
    ⟨h.table, rfl, h.files, h.backups, h.console, h.sent⟩
  unfold Engine.tell
  rw [h.channels]
  exact hsame.emitAll _

/-- A note of who let a channel go by `part` is no difference. -/
theorem part (e : Engine) (ids : List ChannelId) : (e.part ids).AlikeButPartings e :=
  ⟨rfl, rfl, rfl, rfl, rfl, rfl⟩

end AlikeButPartings

/-- Where bytes go by `emitAll` depends on the files and on what has left alone. -/
theorem emitAll_of_eq {e d : Engine} (hfiles : e.files = d.files) (hsent : e.sent = d.sent)
    (out : List Emission) : e.emitAll out =
      { e with files := (d.emitAll out).files, sent := (d.emitAll out).sent } := by
  obtain ⟨hfiles, hsent⟩ := emitAll_congr hfiles hsent out
  rw [emitAll_eq, hfiles, hsent]

/-- Where bytes go by `emitAll` does not depend on the table, which may be put in before or
after. -/
theorem emitAll_withTable (e : Engine) (table : Table) (out : List Emission) :
    { e with table }.emitAll out = { e.emitAll out with table } := by
  rw [emitAll_eq e]
  exact emitAll_of_eq (e := { e with table }) (d := e) rfl rfl out

/-- Where bytes go by `emitAll` does not depend on the channels, which may be put in before or
after. -/
theorem emitAll_withChannels (e : Engine) (channels : Channels) (out : List Emission) :
    { e with channels }.emitAll out = { e.emitAll out with channels } := by
  rw [emitAll_eq e]
  exact emitAll_of_eq (e := { e with channels }) (d := e) rfl rfl out

/-- The sending of notices by `tell` has nothing to do with the table, which may be put in before or
after. -/
theorem tell_withTable (e : Engine) (table : Table) (notices : List Notice) :
    { e with table }.tell notices = { e.tell notices with table } :=
  emitAll_withTable { e with channels := (Channels.deliver notices e.channels).channels } table _

/-- Notices that are sent in two parts by `tell` are sent as in one. -/
theorem tell_append (e : Engine) (first more : List Notice) :
    e.tell (first ++ more) = (e.tell first).tell more := by
  have hfirst := emitAll_withChannels
    { e with channels := (Channels.deliver first e.channels).channels }
    (Channels.deliver more (Channels.deliver first e.channels).channels).channels
    (Channels.deliver first e.channels).emissions
  unfold tell
  simp only [Channels.deliver_append, emitAll_append, channels_emitAll]
  exact congrArg (emitAll · _) hfirst

/-- To `deliver` notices is to `tell` them; only the notes of who let channels go come with it. -/
theorem deliver_alike (e : Engine) (notices : List Notice) :
    (e.deliver notices).AlikeButPartings (e.tell notices) := by
  suffices h : ∀ (groups : List (List Notice)) (e : Engine),
      (groups.foldl (fun e told => (e.tell told).part (told.map Notice.channel)) e).AlikeButPartings
        (e.tell groups.flatten) by
    have hgroups := h (notices.splitBy fun m n => m.notification.key == n.notification.key) e
    rwa [List.flatten_splitBy] at hgroups
  intro groups
  induction groups with
  | nil => exact fun e => .refl e
  | cons told rest ih =>
    intro e
    rw [List.foldl_cons, List.flatten_cons, tell_append]
    exact (ih _).trans ((AlikeButPartings.part _ _).tell _)

/-! ## Rows of changes -/

/-- Changes of the table, one after another, each of which is delivered before the next
(`Engine.apply`). -/
def applyEach {κ α : Type} (f : κ → Table → Effect Table α) : List κ → Engine → List α × Engine
  | [], e => ([], e)
  | k :: rest, e =>
    let first := e.apply (f k)
    let more := applyEach f rest first.2
    (first.1 :: more.1, more.2)

variable {κ α : Type}

/-- To change the table by `apply` is to put the new one in its place and to send the notices. -/
theorem apply_alike (e : Engine) (f : Table → Effect Table α) :
    (e.apply f).2.AlikeButPartings
      { e.tell (f e.table).notices with table := (f e.table).state } := by
  rw [← tell_withTable]
  exact deliver_alike _ _

/-- A row of changes that are delivered at the end is delivered as if each were on its own
(`applyEach`): the results are the same, and the stores are alike. -/
theorem apply_each (f : κ → Table → Effect Table α) (items : List κ) (e : Engine) :
    (e.apply (Effect.each f items)).1 = (applyEach f items e).1 ∧
      (e.apply (Effect.each f items)).2.AlikeButPartings (applyEach f items e).2 := by
  induction items generalizing e with
  | nil => exact ⟨rfl, .refl e⟩
  | cons k rest ih =>
    have hnow : (e.apply (f k)).2.table = (f k e.table).state := table_apply e (f k)
    have hsent : (e.apply (f k)).2.AlikeButPartings
        { e.tell (f k e.table).notices with table := (f k e.table).state } := apply_alike e (f k)
    have hwhole := apply_alike e (Effect.each f (k :: rest))
    have hmore := apply_alike (e.apply (f k)).2 (Effect.each f rest)
    obtain ⟨hresult, halike⟩ := ih (e.apply (f k)).2
    rw [hnow] at hmore
    rw [Effect.each_cons, tell_append] at hwhole
    refine ⟨?_, hwhole.trans (AlikeButPartings.trans ?_ (hmore.symm.trans halike))⟩
    · refine congrArg ((f k e.table).result :: ·) (Eq.trans ?_ hresult)
      exact congrArg (fun t => (Effect.each f rest t).result) hnow.symm
    · have hrest := (hsent.tell (Effect.each f rest (f k e.table).state).notices).symm
      rw [tell_withTable] at hrest
      exact hrest.withTable _

end Engine

/-! ## The order of a batch -/

namespace Table

/-- Two rows in key order that agree on the items of each key are the same. -/
theorem eq_of_inKeyOrder {α : Type} (key : α → String) {l r : List α}
    (hl : l.Pairwise fun a b => key a ≤ key b) (hr : r.Pairwise fun a b => key a ≤ key b)
    (h : ∀ k, l.filter (key · == k) = r.filter (key · == k)) : l = r := by
  induction l generalizing r with
  | nil =>
    cases r with
    | nil => rfl
    | cons b r => simpa using h (key b)
  | cons a l ih =>
    have hmem : ∀ c, c ∈ a :: l ↔ c ∈ r := by
      intro c
      have hself := congrArg (c ∈ ·) (h (key c))
      simpa using hself
    cases r with
    | nil => cases (hmem a).1 List.mem_cons_self
    | cons b r =>
      obtain ⟨hla, hlRest⟩ := List.pairwise_cons.1 hl
      obtain ⟨hrb, hrRest⟩ := List.pairwise_cons.1 hr
      have hle : ∀ {c d : α} {m : List α}, (∀ x ∈ m, key c ≤ key x) → d ∈ c :: m →
          key c ≤ key d := by
        intro c d m hm hd
        rcases List.mem_cons.1 hd with rfl | hd
        · exact String.le_refl _
        · exact hm d hd
      -- each of the two that stand first is in the other row too, and no key there comes before
      have hkeys : key b = key a := String.le_antisymm
        (hle hrb ((hmem a).1 List.mem_cons_self)) (hle hla ((hmem b).2 List.mem_cons_self))
      have hfirst := h (key a)
      simp only [List.filter_cons, hkeys, beq_self_eq_true, if_true] at hfirst
      obtain ⟨rfl, -⟩ := List.cons.inj hfirst
      refine congrArg (a :: ·) (ih hlRest hrRest fun k => ?_)
      have hk := h k
      rw [List.filter_cons, List.filter_cons] at hk
      split at hk
      · exact (List.cons.inj hk).2
      · exact hk

/-- The values that a batch of pairs gives a key, in order. -/
def valuesIn (pairs : List (String × String)) (key : String) : List String :=
  (pairs.filter (·.1 == key)).map Prod.snd

/-- The pairs of a key in a batch are the key with each of its `valuesIn`. -/
theorem filter_eq_valuesIn (pairs : List (String × String)) (key : String) :
    pairs.filter (·.1 == key) = (valuesIn pairs key).map (Prod.mk key) := by
  rw [valuesIn, List.map_map]
  refine ((List.map_congr_left fun p hp => ?_).trans (List.map_id _)).symm
  obtain ⟨-, hkey⟩ := List.mem_filter.1 hp
  exact Prod.ext (beq_iff_eq.1 hkey).symm rfl

/-- Batches that give each key the same values in order (`valuesIn`) are the same batch in key
order. -/
theorem inKeyOrder_congr {pairs others : List (String × String)}
    (h : ∀ key, valuesIn pairs key = valuesIn others key) :
    inKeyOrder (·.1) pairs = inKeyOrder (·.1) others := by
  obtain ⟨hordered, -, hkept⟩ := inKeyOrder_stable (fun p : String × String => p.1) pairs
  obtain ⟨hordered', -, hkept'⟩ := inKeyOrder_stable (fun p : String × String => p.1) others
  refine eq_of_inKeyOrder _ hordered hordered' fun k => ?_
  rw [hkept, hkept', filter_eq_valuesIn, filter_eq_valuesIn, h]

/-- After a row of writes a key that has a bucket has the last value that it was given (`valuesIn`),
or its own if it was given none. -/
theorem read_each_writePair (t : Table) (pairs : List (String × String)) (key : String) :
    (Effect.each writePair pairs t).state.read key =
      if (route key).isSome then (valuesIn pairs key).getLast?.or (t.read key) else none := by
  induction pairs generalizing t with
  | nil =>
    cases hr : route key with
    | none => exact read_of_not_routed hr
    | some i => rfl
  | cons pair rest ih =>
    rw [Effect.each_cons, ih, state_writePair, read_write]
    cases hr : route key with
    | none => rfl
    | some i =>
      simp only [Option.isSome_some, and_true, if_true, valuesIn, List.filter_cons, beq_iff_eq]
      split
      case isTrue hkey => simp [List.getLast?_cons]
      case isFalse hkey => rfl

end Table

/-! ## Batches -/

/-- What a store does with a batch is what it does with the items one after another in key order
(`applyEach`), those of one key in the order in which they were given: the results are the same, and
so are the table, the channels, the files and what has left on the lines. So batches that give each
key the same values in order are the same to a store, and the values after a batch are those after
its pairs in the order in which they were given. -/
theorem batch_eq_singles (e : Engine) :
    (∀ pairs,
      let batch := e.apply (·.writeMany pairs)
      let singles := e.applyEach Table.writePair (Table.inKeyOrder (·.1) pairs)
      batch.1 = singles.1 ∧ batch.2.AlikeButPartings singles.2) ∧
    (∀ keys, e.table.readMany keys =
      (Table.inKeyOrder id keys).map fun key => (key, e.table.read key)) ∧
    (∀ keys,
      let batch := e.apply (·.deleteMany keys)
      let singles := e.applyEach Table.deleteKey (Table.inKeyOrder id keys)
      batch.1 = singles.1 ∧ batch.2.AlikeButPartings singles.2) ∧
    (∀ (α : Type) (key : α → String) (batch : List α),
      (Table.inKeyOrder key batch).Pairwise (fun a b => key a ≤ key b) ∧
        (Table.inKeyOrder key batch).Perm batch ∧
        ∀ k, (Table.inKeyOrder key batch).filter (key · == k) = batch.filter (key · == k)) ∧
    (∀ pairs others, (∀ key, Table.valuesIn pairs key = Table.valuesIn others key) →
      e.apply (·.writeMany pairs) = e.apply (·.writeMany others)) ∧
    ∀ pairs key, (e.apply (·.writeMany pairs)).2.table.read key =
      (e.applyEach Table.writePair pairs).2.table.read key := by
  have hwrite : ∀ pairs, (fun t : Table => t.writeMany pairs) =
      Effect.each Table.writePair (Table.inKeyOrder (·.1) pairs) :=
    fun pairs => funext fun t => t.writeMany_eq_each pairs
  have hdelete : ∀ keys, (fun t : Table => t.deleteMany keys) =
      Effect.each Table.deleteKey (Table.inKeyOrder id keys) :=
    fun keys => funext fun t => t.deleteMany_eq_each keys
  refine ⟨fun pairs => ?_, e.table.readMany_eq_map, fun keys => ?_,
    fun α => Table.inKeyOrder_stable, fun pairs others h => ?_, fun pairs key => ?_⟩
  · rw [hwrite]
    exact e.apply_each Table.writePair _
  · rw [hdelete]
    exact e.apply_each Table.deleteKey _
  · rw [hwrite, hwrite, Table.inKeyOrder_congr h]
  · have hkept := (Table.inKeyOrder_stable (fun p : String × String => p.1) pairs).2.2 key
    rw [← (e.apply_each Table.writePair pairs).2.table, Engine.table_apply, Engine.table_apply,
      Table.writeMany_eq_each, Table.read_each_writePair, Table.read_each_writePair,
      Table.valuesIn, hkept]
    rfl

/-- A store in which a client watches a key, to which the notices of a batch go. -/
def watchedStore : Engine :=
  Operation.runAll [.openChannel {}, .subscribe "b" "c" 0] (Engine.ofFiles 1 .bare)

/-- A batch that names the watched key of `watchedStore` twice is the same wherever the other key
stands, and both values of the watched key are sent, the later one last. -/
theorem batch_eq_singles_twoValues :
    watchedStore.apply (·.writeMany [("b", "1"), ("a", "2"), ("b", "3")]) =
        watchedStore.apply (·.writeMany [("a", "2"), ("b", "1"), ("b", "3")]) ∧
      (watchedStore.apply (·.writeMany [("b", "1"), ("a", "2"), ("b", "3")])).2.sent.map
        (Notification.ofFrame? ∘ Emission.bytes) = [some ⟨"b", "1"⟩, some ⟨"b", "3"⟩] := by
  obtain ⟨hwrite, -, -, -, hsame, -⟩ := batch_eq_singles watchedStore
  obtain ⟨-, halike⟩ := hwrite [("b", "1"), ("a", "2"), ("b", "3")]
  have hordered : Table.inKeyOrder (·.1) [("b", "1"), ("a", "2"), ("b", "3")] =
      [("a", "2"), ("b", "1"), ("b", "3")] := by
    simp [Table.inKeyOrder, List.mergeSort]
  rw [hordered] at halike
  refine ⟨hsame _ _ fun key => ?_, halike.sent ▸ by decide +kernel⟩
  simp only [Table.valuesIn, List.filter_cons, List.filter_nil]
  rcases Decidable.em ("a" = key) with rfl | ha
  · rfl
  · simp [ha]

end KeyWatch
