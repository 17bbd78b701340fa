import KeyWatch.Job.Runner
import KeyWatch.Proofs.Job.Replay

/-!
# What the commands of a job print

What a job puts out and what it backs up are told here by its commands and the table alone, without
files: every command prints something that depends on the table (`Table.prints`), and a backup
copies the entries of the table (`Table.copies`). A line without a command (`Job.command?`) is
executed as a command that prints nothing, copies nothing and leaves the table as it is.
-/

namespace KeyWatch

namespace Job

/-- The command on a line, if there is one: the line is text, it is neither blank nor a comment, and
`Command.parse` takes it whole. -/
def command? (line : Bytes) : Option Command :=
  match Utf8.decode line with
  | .error _ => none
  | .ok text =>
    if Text.isSilent (Text.trim text) then none else (Command.parse (Text.trim text)).toOption

/-- The commands on the lines of a text, in order (`command?`). -/
def commands (content : Bytes) : List Command := (lines content).filterMap command?

/-- A line is executed as its `command?`, and if it has none as one that does nothing. -/
theorem ofBytes_of_command? (line : Bytes) :
    command? line = some (Command.ofBytes line) ∨
      command? line = none ∧
        (Command.ofBytes line = .empty ∨ ∃ text, Command.ofBytes line = .invalid text) := by
  unfold command? Command.ofBytes
  cases Utf8.decode line with
  | error fault => exact .inr ⟨rfl, .inr ⟨_, rfl⟩⟩
  | ok text =>
    simp only [Command.ofLine, Text.readLine]
    split
    case isTrue => exact .inr ⟨rfl, .inl rfl⟩
    case isFalse =>
      cases Command.parse (Text.trim text) with
      | error fault => exact .inr ⟨rfl, .inr ⟨_, rfl⟩⟩
      | ok command => exact .inl rfl

end Job

namespace Table

/-- What a command adds to the output of its job, by the table alone: `formatRead` of what it reads,
`formatDelete` of what it deletes, `formatShow` of the snapshot. -/
def prints (t : Table) : Job.Command → String
  | .read keys => Job.formatRead (t.readMany keys)
  | .delete keys => (Job.formatDelete (t.deleteMany keys).result).getD ""
  | .show => Job.formatShow t.snapshot
  | .wait (_ + 1) => Job.waiting
  | _ => ""

/-- What commands add to the output, one after another, each on the table that those before it leave
(`prints`). -/
def printsEach (t : Table) : List Job.Command → List String
  | [] => []
  | command :: rest => t.prints command :: (t.obey command).printsEach rest

/-- The entries that a command copies to a backup: those of the `snapshot`, if it is one. -/
def copies (t : Table) : Job.Command → List (List Entry)
  | .backup => [t.snapshot]
  | _ => []

/-- The entries that commands copy to backups, backup by backup (`copies`). -/
def copiesEach (t : Table) : List Job.Command → List (List Entry)
  | [] => []
  | command :: rest => t.copies command ++ (t.obey command).copiesEach rest

variable {t : Table}

/-- A command has one copy if it is a backup, and none otherwise (`copies`). -/
theorem length_copies (t : Table) (command : Job.Command) :
    (t.copies command).length = [command].count .backup := by
  cases command with
  | backup => rfl
  | write | read | delete | «show» | wait | help | empty | invalid => rfl

/-- There are as many copies in `copiesEach` as backups among the commands. -/
theorem length_copiesEach (t : Table) (commands : List Job.Command) :
    (t.copiesEach commands).length = commands.count .backup := by
  induction commands generalizing t with
  | nil => rfl
  | cons command rest ih =>
    rw [copiesEach, List.length_append, ih, length_copies, ← List.count_append,
      List.singleton_append]

/-- The copies of commands are those of the first part and then those of the second, on the table
that the first part leaves (`obey`). -/
theorem copiesEach_append (t : Table) (before rest : List Job.Command) :
    t.copiesEach (before ++ rest) =
      t.copiesEach before ++ (before.foldl obey t).copiesEach rest := by
  induction before generalizing t with
  | nil => rfl
  | cons command before ih =>
    rw [List.cons_append, copiesEach, copiesEach, ih, List.append_assoc, List.foldl_cons]

/-- A backup copies the table as the commands before it leave it (`obey`). -/
theorem getElem?_copiesEach (t : Table) (before rest : List Job.Command) :
    (t.copiesEach (before ++ .backup :: rest))[before.count .backup]? =
      some (before.foldl obey t).snapshot := by
  rw [copiesEach_append, ← length_copiesEach t before, List.getElem?_append_right (Nat.le_refl _),
    Nat.sub_self]
  rfl

end Table

end KeyWatch
