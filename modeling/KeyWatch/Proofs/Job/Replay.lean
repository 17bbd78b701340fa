import KeyWatch.Job.Execute
import KeyWatch.Proofs.Job.Fields
import KeyWatch.Proofs.Job.Spelled
import KeyWatch.Proofs.Table.Past

/-!
# A dump can be replayed

A job shows the table as one line for each entry, and so does a backup. Put between the brackets of
a batch, each of these lines writes its entry, and the lines together make of an empty table the one
that was shown (`dump_replays`). So a dump tells tables apart, and nothing of a table that only jobs
worked on is lost in it.

Three facts make the way there and back. What jobs put into a table are fields, and in fields stands
nothing that means something to the scanners or ends a line (`Table.OfJobs`). A spelled pair is
scanned as that pair (`Job.Command.ofLine_writeLine`). And a table is rebuilt when the entries of
its snapshot are written in order, since each bucket takes its own in the order in which it has them
(`Table.Consistent.writeEach_snapshot`).
-/

namespace KeyWatch

open Job (formatEntry formatShow pairText)

/-! ## Rebuilding a table -/

namespace Table

variable {t : Table}

/-- A table after the writing of entries one after another by `write`. -/
def writeEach (entries : List Entry) (t : Table) : Table :=
  entries.foldl (fun t e => (t.write e.key e.value).state) t

/-- Entries of keys that have none yet are put by `writeEach` behind those of their buckets, in
order. -/
theorem entries_writeEach {entries : List Entry} (hnodup : (entries.map Entry.key).Nodup)
    (hnew : ∀ e ∈ entries, t.contains e.key = false) (i : BucketIndex) :
    ((writeEach entries t).bucket i).entries =
      (t.bucket i).entries ++ entries.filter (fun e => route e.key == some i) := by
  induction entries generalizing t with
  | nil => exact (List.append_nil _).symm
  | cons e rest ih =>
    obtain ⟨hfirst, hrest⟩ := List.nodup_cons.1 hnodup
    have hmore : ∀ f ∈ rest, (t.write e.key e.value).state.contains f.key = false := by
      intro f hf
      refine Bool.eq_false_iff.2 fun hc => ?_
      rcases contains_write.1 hc with ⟨he, -⟩ | hold
      · exact hfirst (he ▸ List.mem_map_of_mem hf)
      · rw [hnew f (List.mem_cons_of_mem e hf)] at hold
        cases hold
    have hwritten : ((t.write e.key e.value).state.bucket i).entries =
        (t.bucket i).entries ++ [e].filter (fun e => route e.key == some i) := by
      unfold write
      cases hr : route e.key with
      | none => simp [Effect.pure, hr]
      | some j =>
        have hc := hnew e List.mem_cons_self
        rw [contains_of_route hr] at hc
        simp only [Effect.within, bucket_setBucket, Bucket.put, hc]
        by_cases hi : i = j
        · simp [hi, hr]
        · simp [hi, hr, Ne.symm hi]
    show ((writeEach rest (t.write e.key e.value).state).bucket i).entries = _
    rw [ih hrest hmore, hwritten, List.append_assoc, ← List.filter_append]
    rfl

/-- A table without subscribers is rebuilt by `writeEach` from its snapshot, since each bucket takes
its own entries in the order in which it has them. -/
theorem Consistent.writeEach_snapshot (h : t.Consistent) (hlists : ∀ key, t.listOf key = .empty) :
    writeEach t.snapshot .empty = t := by
  have hconsistent : (writeEach t.snapshot .empty).Consistent :=
    List.foldlRecOn t.snapshot _ .empty fun u hu e _ => hu.write e.key e.value
  have hnew : ∀ e ∈ t.snapshot, Table.empty.contains e.key = false := by
    intro e _
    unfold contains
    cases route e.key with
    | none => rfl
    | some i =>
      rw [Option.any_some, bucket_empty]
      rfl
  refine hconsistent.ext h (fun i => ?_) fun key => ?_
  · rw [entries_writeEach h.nodup_snapshot hnew, h.filter_snapshot, bucket_empty]
    rfl
  · rw [hlists]
    exact List.foldlRecOn (motive := fun u : Table => u.listOf key = .empty) t.snapshot _
      (listOf_empty key) fun u hu e _ => (listOf_write u e.key e.value key).trans hu

end Table

/-! ## Tables of jobs -/

/-- A table on which only jobs work: nobody subscribes, and keys and values are fields
(`Job.Command.IsField`). -/
structure Table.OfJobs (t : Table) : Prop where
  consistent : t.Consistent
  lists : ∀ key, t.listOf key = .empty
  fields : ∀ key value, t.read key = some value →
    Job.Command.IsField key ∧ Job.Command.IsField value

namespace Table

variable {t : Table}

/-- The table after a command, by the batches of `Table`; other commands leave it alone. -/
def obey (t : Table) : Job.Command → Table
  | .write pairs => (t.writeMany pairs).state
  | .delete keys => (t.deleteMany keys).state
  | _ => t

namespace OfJobs

/-- The empty table is one of jobs (`OfJobs`). -/
theorem empty : Table.empty.OfJobs where
  consistent := .empty
  lists := listOf_empty
  fields key value h := by
    unfold read at h
    cases hr : route key with
    | none =>
      rw [hr] at h
      cases h
    | some i =>
      rw [hr, Option.bind_some, bucket_empty] at h
      cases h

/-- A table of jobs stays one when `Table.write` puts a field under a field. -/
theorem write (h : t.OfJobs) {key value : String} (hkey : Job.Command.IsField key)
    (hvalue : Job.Command.IsField value) : (t.write key value).state.OfJobs where
  consistent := h.consistent.write key value
  lists k := by rw [listOf_write, h.lists]
  fields k v hread := by
    rw [read_write] at hread
    split at hread
    case isTrue hk =>
      cases hread
      exact ⟨hk.1 ▸ hkey, hvalue⟩
    case isFalse => exact h.fields k v hread

/-- A table of jobs stays one when `Table.delete` takes a key away. -/
theorem delete (h : t.OfJobs) (key : String) : (t.delete key).state.OfJobs where
  consistent := h.consistent.delete key
  lists k := by
    rw [listOf_delete, h.lists]
    split <;> rfl
  fields k v hread := by
    rw [read_delete] at hread
    split at hread
    case isTrue => cases hread
    case isFalse => exact h.fields k v hread

/-- A table of jobs stays one when pairs of fields are written one after another (`Effect.each`). -/
theorem each_write {pairs : List (String × String)} (h : t.OfJobs)
    (hpairs : ∀ pair ∈ pairs, Job.Command.IsField pair.1 ∧ Job.Command.IsField pair.2) :
    (Effect.each writePair pairs t).state.OfJobs := by
  induction pairs generalizing t with
  | nil => exact h
  | cons pair rest ih =>
    obtain ⟨hkey, hvalue⟩ := hpairs pair List.mem_cons_self
    exact ih (h.write hkey hvalue) fun p hp => hpairs p (List.mem_cons_of_mem pair hp)

/-- A command whose fields are fields leaves a table of jobs (`OfJobs`). -/
theorem obey (h : t.OfJobs) {command : Job.Command}
    (hfields : ∀ field ∈ command.fields, Job.Command.IsField field) :
    (t.obey command).OfJobs := by
  cases command with
  | read | «show» | wait | backup | help | empty | invalid => exact h
  | delete keys =>
    rw [Table.obey, deleteMany_eq_each]
    exact each_state_induction (fun key u hu => hu.delete key) _ h
  | write pairs =>
    rw [Table.obey, writeMany_eq_each]
    refine h.each_write fun pair hpair => ?_
    have hmem : pair ∈ pairs := (inKeyOrder_stable (·.1) pairs).2.1.mem_iff.1 hpair
    have hpairs : ∀ field ∈ [pair.1, pair.2], Job.Command.IsField field := fun field hf =>
      hfields field (List.mem_flatMap.2 ⟨pair, hmem, hf⟩)
    exact ⟨hpairs pair.1 (by simp), hpairs pair.2 (by simp)⟩

end OfJobs

end Table

namespace Engine

/-- What a command makes of the table by `execute` depends on nothing but the table
(`Table.obey`). -/
theorem table_execute (command : Job.Command) (job : Job.State) (out : Sink) (e : Engine) :
    (e.execute command job out).engine.table = e.table.obey command := by
  cases command with
  | read | «show» | backup | help | empty | invalid => rfl
  | write pairs => exact table_apply e (·.writeMany pairs)
  | delete keys =>
    have htable : (e.apply (·.deleteMany keys)).2.table = (e.table.deleteMany keys).state :=
      table_apply e _
    simp only [execute]
    split
    case h_1 => exact htable
    case h_2 => exact htable
  | wait delay =>
    cases delay with
    | zero => rfl
    | succ delay =>
      simp only [execute, announce]
      split <;> rfl

/-- The store after the commands on some lines, one after another, each executed by `execute` for
some job and with some output. -/
def obey (told : List (String × Job.State × Sink)) (e : Engine) : Engine :=
  told.foldl (fun e (line, job, out) => (e.execute (.ofLine line) job out).engine) e

/-- What the commands on lines make of the table depends on the lines alone, and not on the jobs and
their outputs (`table_execute`). -/
theorem table_obey (told : List (String × Job.State × Sink)) (e : Engine) :
    (e.obey told).table =
      (told.map Prod.fst).foldl (fun t line => t.obey (.ofLine line)) e.table := by
  induction told generalizing e with
  | nil => rfl
  | cons first rest ih =>
    obtain ⟨line, job, out⟩ := first
    show ((e.execute (.ofLine line) job out).engine.obey rest).table = _
    rw [ih, table_execute]
    rfl

/-- On an empty table the commands on lines leave a table of jobs (`Table.OfJobs`). -/
theorem ofJobs_obey (told : List (String × Job.State × Sink)) (e : Engine) :
    ({ e with table := .empty }.obey told).table.OfJobs := by
  rw [table_obey]
  exact List.foldlRecOn (told.map Prod.fst) _ Table.OfJobs.empty
    fun t ht line _ => ht.obey Job.Command.isField_of_ofLine

end Engine

/-! ## Dumps -/

namespace Job

/-- The line of an entry, without its end (`formatEntry`). -/
def entryLine (e : Entry) : String := pairText e.key ", " e.value

/-- The lines of a text, cut at its newlines, the last of which is what stands behind the last
newline (`formatShow` leaves nothing there). -/
def linesOf (text : String) : List String := (text.toList.splitOn '\n').map String.ofList

/-- The lines that write what a dump shows, one for each of its `linesOf`. -/
def replay (dump : String) : List String :=
  (linesOf dump).dropLast.map fun line => "WRITE [" ++ line ++ "]"

/-- The lines of a dump by `formatShow` are those of its entries, and nothing stands behind the
last. -/
theorem linesOf_formatShow {entries : List Entry}
    (h : ∀ e ∈ entries, Command.IsField e.key ∧ Command.IsField e.value) :
    linesOf (formatShow entries) = entries.map entryLine ++ [""] := by
  have hchars : (formatShow entries).toList =
      entries.flatMap fun e => (entryLine e).toList ++ ['\n'] := by
    rw [formatShow, String.toList_join, List.flatMap_map]
    exact List.flatMap_congr fun e _ => String.toList_append
  rw [linesOf, hchars]
  clear hchars
  induction entries with
  | nil => rfl
  | cons e rest ih =>
    obtain ⟨hkey, hvalue⟩ := h e List.mem_cons_self
    have hfield : ∀ {c}, Command.isFieldChar c = true → (c == '\n') = false := by
      intro c hc
      refine beq_eq_false_iff_ne.2 fun he => ?_
      rw [he] at hc
      cases hc
    have hline : ∀ c ∈ (entryLine e).toList, (c == '\n') = false := by
      intro c hc
      simp only [entryLine, pairText, String.toList_append, List.mem_append] at hc
      rcases hc with (((hc | hc) | hc) | hc) | hc
      · obtain rfl := List.mem_singleton.1 hc
        rfl
      · exact hfield (hkey.2.2 c hc)
      · have hseparator : c = ',' ∨ c = ' ' := by
          rw [show ", ".toList = [',', ' '] from rfl] at hc
          simpa using hc
        rcases hseparator with rfl | rfl <;> rfl
      · exact hfield (hvalue.2.2 c hc)
      · obtain rfl := List.mem_singleton.1 hc
        rfl
    rw [List.flatMap_cons, List.append_assoc, List.singleton_append, List.splitOn,
      List.splitOnP_append_cons_of_forall_mem hline '\n' rfl, List.map_cons, String.ofList_toList]
    exact congrArg _ (ih fun f hf => h f (List.mem_cons_of_mem e hf))

/-- The `entryLine` between the brackets of a batch writes the entry. -/
theorem ofLine_entryLine {e : Entry} (hkey : Command.IsField e.key)
    (hvalue : Command.IsField e.value) :
    Command.ofLine ("WRITE [" ++ entryLine e ++ "]") = .write [(e.key, e.value)] := by
  have hline : "WRITE [" ++ entryLine e ++ "]" = Command.writeLine [(e.key, e.value)] := by
    simp [Command.writeLine, entryLine]
  rw [hline]
  refine Command.ofLine_writeLine (fun pair hpair => ?_) (List.cons_ne_nil _ _)
    (show 1 ≤ maxBatchSize by decide)
  obtain rfl := List.mem_singleton.1 hpair
  exact ⟨hkey, hvalue⟩

end Job

open Job

namespace Table

/-- A batch of one pair by `writeMany` is a single write. -/
theorem state_writeMany_singleton (t : Table) (key value : String) :
    (t.writeMany [(key, value)]).state = (t.write key value).state := by
  rw [writeMany_eq_each, inKeyOrder, List.mergeSort_singleton]
  rfl

namespace OfJobs

variable {t : Table}

/-- Key and value of every entry of a table of jobs are fields (`Command.IsField`). -/
theorem isField_of_mem_snapshot (h : t.OfJobs) {e : Entry} (he : e ∈ t.snapshot) :
    Command.IsField e.key ∧ Command.IsField e.value :=
  h.fields e.key e.value (h.consistent.mem_snapshot_iff.1 he)

/-- The lines of the dump of a table of jobs are those of its snapshot (`linesOf_formatShow`). -/
theorem linesOf_dump (h : t.OfJobs) :
    linesOf (formatShow t.snapshot) = t.snapshot.map entryLine ++ [""] :=
  linesOf_formatShow fun _ => h.isField_of_mem_snapshot

/-- The lines that `replay` makes of the dump of a table of jobs rebuild the table. -/
theorem foldl_replay (h : t.OfJobs) :
    (replay (formatShow t.snapshot)).foldl (fun u line => u.obey (.ofLine line)) .empty = t := by
  have hstep : ∀ (u : Table), ∀ e ∈ t.snapshot,
      u.obey (.ofLine ("WRITE [" ++ entryLine e ++ "]")) = (u.write e.key e.value).state := by
    intro u e he
    obtain ⟨hkey, hvalue⟩ := h.isField_of_mem_snapshot he
    rw [ofLine_entryLine hkey hvalue]
    exact u.state_writeMany_singleton e.key e.value
  calc (replay (formatShow t.snapshot)).foldl (fun u line => u.obey (.ofLine line)) .empty
    _ = t.snapshot.foldl
          (fun u e => u.obey (.ofLine ("WRITE [" ++ entryLine e ++ "]"))) .empty := by
      rw [replay, h.linesOf_dump, List.dropLast_concat, List.foldl_map, List.foldl_map]
    _ = writeEach t.snapshot .empty := List.foldl_ext _ _ _ hstep
    _ = t := h.consistent.writeEach_snapshot h.lists

end OfJobs

end Table

/-- After every row of commands on an empty table, whatever the lines are: the line of each entry of
the table, between the brackets of a batch, is the command that writes the entry; the dump of the
table is cut at its newlines into these lines; the commands on them, executed in order on an empty
table (`replay`), make it the same table, with its snapshot in the same order; and no other table
that commands lead to has the same dump. -/
theorem dump_replays (e : Engine) (told : List (String × Job.State × Sink)) :
    let t := ({ e with table := .empty }.obey told).table
    let dump := formatShow t.snapshot
    (∀ entry ∈ t.snapshot, formatEntry entry.key entry.value = entryLine entry ++ "\n" ∧
        Command.ofLine ("WRITE [" ++ entryLine entry ++ "]") = .write [(entry.key, entry.value)]) ∧
      linesOf dump = t.snapshot.map entryLine ++ [""] ∧
      (∀ (d : Engine) (job : Job.State) (out : Sink),
        ({ d with table := .empty }.obey ((replay dump).map (·, job, out))).table = t) ∧
      ∀ (d : Engine) (others : List (String × Job.State × Sink)),
        formatShow ({ d with table := .empty }.obey others).table.snapshot = dump →
        ({ d with table := .empty }.obey others).table = t := by
  intro t dump
  have ht : t.OfJobs := e.ofJobs_obey told
  refine ⟨fun entry hentry => ⟨rfl, ?_⟩, ht.linesOf_dump, fun d job out => ?_, fun d others hd => ?_⟩
  · obtain ⟨hkey, hvalue⟩ := ht.isField_of_mem_snapshot hentry
    exact ofLine_entryLine hkey hvalue
  · rw [Engine.table_obey, List.map_map]
    exact (congrArg (List.foldl _ _) (List.map_id _)).trans ht.foldl_replay
  · have hu := d.ofJobs_obey others
    rw [← hu.foldl_replay, hd]
    exact ht.foldl_replay

end KeyWatch
