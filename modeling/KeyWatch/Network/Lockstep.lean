import KeyWatch.Network.Basic

/-!
# Networks in lockstep

In lockstep a client waits until what it did has had its effect: a call is the request, the answer
and the reading of the response in one (`Network.call?`), and a client that leaves is gone from the
server before anybody acts again (`Network.leave`). No more clients are connected than there are
workers, so no session waits in the queue.
-/

namespace KeyWatch.Network

/-- The server does what it can about registrations: it reads one (`Network.intake?`), and a worker
begins with the session of the client (`Network.begin?`). -/
def settle (n : Network) : Network :=
  let n := n.intake?.getD n
  n.begin?.getD n

/-- Writes bytes to the pipe for registrations, on which the server acts at once
(`Network.settle`). -/
def writeRegistration (frame : Bytes) (n : Network) : Network :=
  settle { n with registrations := n.registrations.write frame }

/-- A client leaves: it hangs up, the server ends its session (`Network.serve?`), and its pipes are
removed. Gives the notifications that it received. -/
def leave (label : String) (n : Network) : List Notification × Network :=
  match n.party? label with
  | none => ([], n)
  | some p =>
    let n := n.update label fun p =>
      { p with connection := { p.connection with requests := p.connection.requests.close } }
    let n := (n.serve? label).getD n
    let news := match n.party? label with
      | some p => p.connection.news
      | none => []
    let n := n.setFiles (p.connection.paths.remove n.server.engine.files)
    (news, n.drop label)

/-- Makes a client's directory, its pipes and its connection, and registers it (`Client.announce`,
`Network.writeRegistration`). -/
def join (label id : String) (n : Network) : Option Error × Network :=
  let directory := n.directory.join (.ofString label)
  let paths := Client.Paths.ofId directory id
  let files := n.server.engine.files.addOrKeep directory .directory
  match Client.announce (register n.directory) paths id files with
  | (.error e, files) => (some e, n.setFiles files)
  | (.ok frame, files) =>
    let party : Party := ⟨.start id paths, .waiting⟩
    let n := { n.setFiles files with parties := (label, party) :: n.parties }
    (none, n.writeRegistration frame)

/-- Lets the party that was under a label before the latest leave (`Network.leave`). -/
def replace (label : String) (p : Party) (n : Network) : Network :=
  let n := ((n.drop label).leave label).2
  { n with parties := (label, p) :: n.parties }

/-- Connects a client, which then takes its notifications: gives why it is not connected, if it is
not; nothing where it would have to wait, be it for a worker. The client that was under the label
leaves, unless it has the id. Operation: `connect`. -/
def connect? (label id : String) (n : Network) : Option (Option Error × Network) :=
  if n.workers ≤ n.parties.length then none
  else if (n.party? label).any (·.connection.id == id) then
    let paths := Client.Paths.ofId (n.directory.join (.ofString label)) id
    some (some (.transport (.refused id)), n.setFiles (paths.remove n.server.engine.files))
  else
    match n.join label id with
    | (some e, n) => some (some e, n)
    | (none, n) => do
      let p ← n.party? label
      match ← p.connection.greet? with
      | (none, connection) =>
        return (none, n.replace label { p with connection := { connection with taken := true } })
      | (some e, _) =>
        return (some e, (n.drop label).setFiles (p.connection.paths.remove n.server.engine.files))

/-- Makes a call: gives its result; nothing where it would have to wait. It is the request, the
answer and the reading of the response in one (`Network.ask`, `Network.serve?`, `Network.hear?`). -/
def call? (label : String) (r : Request) (n : Network) :
    Option (Except Error ResultCode × Network) := do
  match ← n.ask label r with
  | (some e, n) => return (.error e, n)
  | (none, n) => (← n.serve? label).hear? label r.op

/-- Lets clients leave one after another (`Network.leave`), and gives the notifications of each. -/
def leaveEach : List String → Network → List (String × List Notification) × Network
  | [], n => ([], n)
  | label :: rest, n =>
    let (news, n) := n.leave label
    let (more, n) := leaveEach rest n
    ((label, news) :: more, n)

/-- Lets all clients leave, in the order of their labels (`Network.leaveEach`). -/
def leaveAll (n : Network) : List (String × List Notification) × Network :=
  leaveEach (Table.inKeyOrder id (n.parties.map (·.1))) n

/-- Ends the intake of registrations and closes the queue: gives why the intake cannot be ended, if
it cannot. Operation: `shutdown`. -/
def stop (n : Network) : Option Error × Network :=
  let path := register n.directory
  match Fifo.openWrite path n.server.engine.files with
  | .error e => (some e, n)
  | .ok _ =>
    let n := { n with server := { n.server with stopping := true, queue := n.server.queue.close } }
    match Fifo.unlink path n.server.engine.files with
    | .error e => (some e, n)
    | .ok files => (none, n.setFiles files)

/-- Whether the pipe for registrations is there, so that a client could connect. -/
def isOpen (n : Network) : Bool :=
  (n.server.engine.files.entry? (register n.directory)).isSome

end KeyWatch.Network
