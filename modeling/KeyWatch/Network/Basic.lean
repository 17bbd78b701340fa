import KeyWatch.Client.Connection
import KeyWatch.Job.Execute
import KeyWatch.Session.Serve

/-!
# Networks

A network is a server with clients, joined by pipes. Whoever writes to a pipe goes on, and whoever
reads acts when what is read is there, so a call is taken apart into the client's request
(`Network.ask`), the server's reading and answering of it (`Network.serve?`), and the client's
reading of the response (`Network.hear?`), and what others do may fall between any two of these.

What the server sends is put into the pipes of those for whom it is (`Network.deliver`).
-/

namespace KeyWatch

/-- How far the server is with a client: its session waits to be served, is served, or has ended. -/
inductive Service where
  | waiting
  | serving (session : Session Empty)
  | ended (result : Except Error SessionEnd)

/-- A client's connection, and how far the server is with it. The server knows it by its
`Party.line`. -/
structure Party where
  connection : Client.Connection
  service : Service

namespace Party

/-- The name by which the server knows the party's response line, which is the path of the pipe
(`Server.register`). -/
def line (p : Party) : String := p.connection.paths.response.shown

/-- The channel on which the server notifies a party that it serves. -/
def channel? (p : Party) (roster : Roster) : Option ChannelId :=
  match p.service with
  | .serving session => (roster.record? session.client).map (·.channel)
  | _ => none

/-- Puts bytes that left the server into the party's pipes, if they are on the line or channel of
the party. -/
def take (roster : Roster) (out : Emission) (p : Party) : Party :=
  let c := p.connection
  match out.line with
  | .response name =>
    if name = p.line then
      { p with connection := { c with responses := c.responses.write out.bytes } }
    else p
  | .notification channel =>
    if p.channel? roster = some channel then
      { p with connection := { c with notifications := c.notifications.write out.bytes } }
    else p
  | .file _ => p

/-- The party once its session has ended: the server's ends of its pipes are closed, and what is in
them can still be read. -/
def close (result : Except Error SessionEnd) (p : Party) : Party :=
  let c := p.connection
  { connection :=
      { c with responses := c.responses.close, notifications := c.notifications.close }
    service := .ended result }

/-- The parties with the first of a label changed, which is the latest. -/
def modify (label : String) (f : Party → Party) : List (String × Party) → List (String × Party)
  | [] => []
  | (other, p) :: rest =>
    if other = label then (other, f p) :: rest else (other, p) :: modify label f rest

end Party

/-- A server with a number of workers and a job, the directory under which everything happens, the
pipe for registrations, the client of the last registration if its session waits for room in the
queue, and the clients by label, the latest first. -/
structure Network where
  server : Server Empty Job.State
  workers : Nat
  directory : Path
  registrations : Pipe
  arriving : Option (Waiter Empty)
  parties : List (String × Party)

namespace Network

/-- The path of the pipe for registrations, on which every client writes. -/
def register (directory : Path) : Path := directory.join (.ofString "register")

/-- A network without clients, once the pipe for registrations is made. -/
def start (workers : Nat) (engine : Engine) (job : Job.State) (directory : Path) :
    Except Error Network := do
  let files ← Fifo.create (register directory) engine.files
  return ⟨.ofEngine workers { engine with files } job, workers, directory, .empty, none, []⟩

/-- The latest party of a label, or `none` for a label that no client has. -/
def party? (n : Network) (label : String) : Option Party := n.parties.lookup label

/-- The network with the latest party of a label changed (`Party.modify`). -/
def update (n : Network) (label : String) (f : Party → Party) : Network :=
  { n with parties := Party.modify label f n.parties }

/-- The network without the latest party of a label; an earlier one of the label comes to light. -/
def drop (n : Network) (label : String) : Network :=
  { n with parties := n.parties.eraseP (·.1 == label) }

/-- The network with its files changed, as a client does that makes or removes pipes. -/
def setFiles (n : Network) (files : FileSystem) : Network :=
  { n with server := { n.server with engine := { n.server.engine with files } } }

/-- Puts what has left the server into the pipes of those for whom it is (`Party.take`). -/
def deliver (n : Network) : Network :=
  { n with
    server := { n.server with engine := n.server.engine.taken }
    parties := n.parties.map fun (label, p) =>
      (label, n.server.engine.sent.foldl (fun p out => p.take n.server.roster out) p) }

/-- Lets the server do something, and delivers what leaves it (`Network.deliver`). -/
def act {α : Type} (n : Network) (f : Server Empty Job.State → α × Server Empty Job.State) :
    α × Network :=
  let (a, server) := f n.server
  (a, deliver { n with server })

/-! ## The steps of the server -/

/-- A change of the table that no client asks for (`Engine.apply`). -/
def apply {α : Type} (n : Network) (f : Table → Effect Table α) : α × Network :=
  n.act fun s =>
    let (a, engine) := s.engine.apply f
    (a, { s with engine })

/-- A command of the network's job (`Engine.execute`): gives its output and its error. -/
def execute (command : Job.Command) (n : Network) : (Bytes × Option Error) × Network :=
  n.act fun s =>
    let done := s.engine.execute command s.outside {}
    ((done.emitted.getD [] ++ done.out.pending, done.error),
      { s with engine := done.engine, outside := done.job })

/-- The server goes on with the registrations: a client that waits for room in the queue is queued
if there is room by now (`Server.enqueue`), and while no client waits, a registration is read, if
one is there, and handed over (`Server.intake`). -/
def intake? (n : Network) : Option Network :=
  match n.arriving with
  | some w =>
    match n.server.enqueue w with
    | (.waiting _, _) => none
    | (.settled _, server) => some (deliver { n with server, arriving := none })
  | none =>
    (n.registrations.receive? Registration.read).map fun (registration, registrations) =>
      let (turn, n) := act { n with registrations } fun s => s.intake Server.enlist registration
      { n with arriving := turn.wait? }

/-- A worker takes a session from the queue, if one is there. A session without a party, whose
requests stand in a file, is handled to its end (`Server.handle`). -/
def begin? (n : Network) : Option Network :=
  match n.server.queue.pop? with
  | none | some (none, _) => none
  | some (some session, queue) =>
    let server := { n.server with queue }
    match n.parties.find? fun (_, p) => p.line == session.line with
    | some (label, _) =>
      some (update { n with server := server.setState session.client .active } label
        fun p => { p with service := .serving session })
    | none => some (act { n with server } fun s => s.handle (fun e => nomatch e) session).2

/-- The server reads a party's request and answers it (`Server.attend`), if it serves the party and
a request, or the end of the requests, is there. -/
def serve? (label : String) (n : Network) : Option Network := do
  let p ← n.party? label
  match p.service with
  | .serving session =>
    let (request, requests) ← p.connection.requests.receive? Request.read
    let n := n.update label fun p => { p with connection := { p.connection with requests } }
    let ((ended, responses), n) := n.act fun s =>
      let (ended, out, s) := s.attend session.client session.line session.responses request
      match ended with
      | some _ => ((ended, out), s.finish session.client session.line out)
      | none => ((ended, out), s)
    return n.update label fun p =>
      match ended with
      | some result => p.close result
      | none => { p with service := .serving { session with responses } }
  | _ => none

/-! ## The steps of the clients -/

/-- A client writes a request (`Client.Connection.ask`), and is told if it cannot be written. -/
def ask (label : String) (r : Request) (n : Network) : Option (Option Error × Network) :=
  (n.party? label).map fun p =>
    match p.connection.ask r with
    | .ok connection => (none, n.update label fun p => { p with connection })
    | .error e => (some e, n)

/-- A client reads the response to a request (`Client.Connection.hear?`), if one is there. -/
def hear? (label : String) (op : OpCode) (n : Network) :
    Option (Except Error ResultCode × Network) := do
  let p ← n.party? label
  let (result, connection) ← p.connection.hear? op
  return (result, n.update label fun p => { p with connection })

end Network

end KeyWatch
