import KeyWatch.Job.Execute
import KeyWatch.Session.Serve

/-!
# Scenarios

A scenario drives one server step by step on one thread. A step is an operation on the table, the
subscriptions, a job, the clients or the sessions, and the requests of a session may hold steps,
which happen while the session waits for a read. Channels and clients go by the names that the
scenario gives them (`Desk`). Each step gives an outcome (`Outcome`), and what leaves the server on
its lines, and what steps within the step give, are its events (`Event`).
-/

namespace KeyWatch

/-- An operation on the table, each an operation of `Table` whose notices are delivered. -/
inductive TableStep where
  | write (key value : String)
  | read (key : String)
  | delete (key : String)
  | contains (key : String)
  | writeMany (pairs : List (String × String))
  | readMany (keys : List String)
  | deleteMany (keys : List String)
  | snapshot
  | size
  | subscribersOf (key : String)

/-- An operation on the channels and subscriptions, where a channel goes by its name
(`Desk.channels`). -/
inductive SubscriptionStep where
  | openChannel (name : String) (sink : Sink)
  | send (channel : String) (notification : Notification)
  | closeChannel (name : String)
  | isClosed (name : String)
  | subscribe (key client channel : String)
  | unsubscribe (key client : String)
  | removeAll (client : String)
  | keysOf (client : String)
  | isSubscribed (client key : String)

/-- An operation on the scenario's job (`Desk.job`) and the files. -/
inductive JobStep where
  | execute (command : Job.Command) (out : Sink)
  | state
  | start (name : String) (directory : Path)
  | waitForBackups
  | closeEngine
  | makeFile (path : Path) (content : Bytes)
  | makeDirectory (path : Path)
  | files

/-- An operation on the clients (`Roster`), where a client goes by its label (`Desk.clients`). -/
inductive ClientStep where
  | add (label id channel : String)
  | insert (label : String)
  | remove (id : String)
  | find (id : String)
  | detach (label : String)
  | contains (id : String)
  | ids
  | state (label : String)

/-- An operation on a server: one of those above, or one on its sessions, of which two may hold
steps to be played while the server waits for a read. -/
inductive Step where
  | table (s : TableStep)
  | subscription (s : SubscriptionStep)
  | job (s : JobStep)
  | client (s : ClientStep)
  | enrol (label id : String) (requests : List (Piece Step)) (responses notifications : Sink)
  | serve
  | queue
  | closeQueue
  | stop
  | registrations (source : List (Piece Step))
  | register (registration : Registration)

/-- What a step gives, with all that the operation behind it tells. -/
inductive Outcome where
  /-- nothing to tell -/
  | silent
  | done
  | wouldBlock
  | failed (e : Error)
  | flag (b : Bool)
  | count (n : Nat)
  | value (v : Option String)
  | written (outcome : WriteOutcome)
  | deleted (outcome : DeleteOutcome)
  | writtenEach (outcomes : List (String × WriteOutcome))
  | readEach (values : List (String × Option String))
  | deletedEach (outcomes : List (String × DeleteOutcome))
  | entries (all : List Entry)
  | size (n : Nat)
  | names (all : List String)
  | subscribed (outcome : SubscribeOutcome)
  | unsubscribed (outcome : UnsubscribeOutcome)
  /-- the output of a command, what it printed on the console, and its error -/
  | executed (out : Bytes) (printed : String) (error : Option Error)
  | job (state : Job.State)
  | backups (failure : Option Error) (pending available : Nat)
  | files (all : List (Bytes × Shown))
  /-- a client that was found, by its label, if it has one -/
  | client (label : Option String)
  | roster (ids : List String)
  /-- the record of a client, and whether its channel is closed -/
  | record (client : ClientRecord) (closed : Bool)
  /-- how the session of a client ended -/
  | served (id : String) (result : Except Error SessionEnd)
  | queue (size capacity : Nat) (closed : Bool)

/-- What is seen of a server beside the outcomes of steps: bytes that leave it, and the outcome of a
step within another. -/
inductive Event where
  | left (out : Emission)
  | stepped (outcome : Outcome)

/-- What a scenario keeps beside its server: the names of its channels and clients, the last given
first, its job, the directory of its files, and the events so far. -/
structure Desk where
  channels : ChannelNames
  clients : List (String × ClientHandle)
  job : Job.State
  directory : Path
  events : List Event

namespace Desk

/-- The desk of a scenario that has not begun, with a job of a name and no channels or clients. -/
def start (job : String) (directory : Path) : Desk :=
  ⟨.empty, [], .start job directory, directory, []⟩

/-- The client of a label, or `none` for a label that no client has. -/
def client? (d : Desk) (label : String) : Option ClientHandle := d.clients.lookup label

/-- The desk with a channel under a name, which another channel may have had
(`ChannelNames.give`). -/
def nameChannel (d : Desk) (name : String) (id : ChannelId) : Desk :=
  { d with channels := d.channels.give name id }

/-- The desk with a client under a label, which no other client keeps. -/
def labelClient (d : Desk) (label : String) (h : ClientHandle) : Desk :=
  { d with clients := (label, h) :: d.clients.filter (·.1 != label) }

/-- The label of a client, or `none` if it has lost its label or never had one. -/
def labelOf (d : Desk) (h : ClientHandle) : Option String :=
  (d.clients.find? (·.2 == h)).map (·.1)

end Desk

/-- A server that a scenario drives: its events are steps, and its `Desk` is what they act on
besides. -/
abbrev World := Server Step Desk

end KeyWatch
