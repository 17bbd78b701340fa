import KeyWatch.Engine
import KeyWatch.Pipe.Fifo
import KeyWatch.Queue.Basic
import KeyWatch.Session.Roster
import KeyWatch.Wire.Registration
import KeyWatch.Wire.Request
import KeyWatch.Wire.Response

/-!
# The server

The server is the store with the clients that are present and the queue of their sessions. A session
is what is left of a client's talk: where its requests come from and where the responses go. A
client that comes is answered, made present and queued, or else leaves no trace (`Server.enrol`). If
the queue is full, only the last of these waits: the client is answered and present, and its session
is queued as soon as there is room (`Server.enqueue`). A client that goes takes its subscriptions
and its channel with it (`Server.release`).

The requests of a session may carry events, which happen elsewhere while the session waits for a
read. What they do is for the caller to say, and what they act on besides the server is kept beside
it (`Server.outside`).
-/

namespace KeyWatch

/-- Where the requests of a session come from: a source, or what was opened at a path. -/
inductive Inlet (ε : Type) where
  | source (pieces : Source ε)
  | opened (what : Opened)

/-- What the reader of an inlet will meet: of a file its content, and of a directory a failure. -/
def Inlet.toSource {ε : Type} (files : FileSystem) : Inlet ε → Source ε
  | source pieces => pieces
  | opened (.file number) => [.bytes (files.content number)]
  | opened .directory => [.fail FileFault.isDirectory.io]
  | opened .fifo => []

/-- The talk of a client that is present: the client, where its requests come from, and where the
responses go, with the name of that line. Operation: `new` of a session. -/
structure Session (ε : Type) where
  client : ClientHandle
  requests : Inlet ε
  responses : Sink
  line : String

/-- A client that was answered and made present, and whose session waits for room in the queue: the
session, and the channel that is closed if the session never gets there (`Server.enqueue`). -/
structure Waiter (ε : Type) where
  session : Session ε
  channel : ChannelId

/-- What has come of taking a client in: it is settled, with a result, or the client waits for room
in the queue, and it is `Server.enqueue` that settles it. -/
inductive Enrolment (ε α : Type) where
  | settled (result : α)
  | waiting (waiter : Waiter ε)

namespace Enrolment

variable {ε α β : Type}

/-- The enrolment with another result in the place of the one that it has, if it is settled. -/
def map (f : α → β) : Enrolment ε α → Enrolment ε β
  | settled result => settled (f result)
  | waiting w => waiting w

/-- The client that waits, or `none` if the enrolment is settled. -/
def waiter? : Enrolment ε α → Option (Waiter ε)
  | settled _ => none
  | waiting w => some w

end Enrolment

/-- The store, the clients, the queue of sessions, whether the server was told to stop, and what
events act on besides. -/
structure Server (ε χ : Type) where
  engine : Engine
  roster : Roster
  queue : Queue (Session ε)
  stopping : Bool
  outside : χ

namespace Server

variable {ε χ : Type}

/-- A server without clients over a store, with room for a number of sessions in its queue.
Operation: `new`. -/
def ofEngine (maxSessions : Nat) (engine : Engine) (outside : χ) : Server ε χ :=
  ⟨engine, .empty, .empty maxSessions, false, outside⟩

/-- Lets bytes leave on a response line, or into the file of its sink (`Sink.line`). -/
def emitResponse (s : Server ε χ) (line : String) (out : Sink) (emitted : Option Bytes) :
    Server ε χ :=
  { s with
    engine := s.engine.emitAll
      (emitted.toList.map fun bytes => ⟨out.line (.response line), bytes⟩) }

/-- Writes a response to a response line (`Response.write`), and lets what is emitted leave.
Operation: `send_response`. -/
def reply (s : Server ε χ) (line : String) (out : Sink) (r : Response) :
    Option Error × Sink × Server ε χ :=
  let sending := r.write out
  (sending.error, sending.sink, s.emitResponse line out sending.emitted)

/-- Closes a response line; the bytes it holds back leave it (`Sink.remainder`). -/
def hangUp (s : Server ε χ) (line : String) (out : Sink) : Server ε χ :=
  s.emitResponse line out out.remainder

/-- Opens a notification channel (`Engine.openChannel`). -/
def openChannel (s : Server ε χ) (sink : Sink) : ChannelId × Server ε χ :=
  let (id, engine) := s.engine.openChannel sink
  (id, { s with engine })

/-- Closes a notification channel (`Engine.closeChannel`). -/
def closeChannel (s : Server ε χ) (id : ChannelId) : Server ε χ :=
  { s with engine := s.engine.closeChannel id }

/-- Makes a client absent (`Roster.detach`) and closes its channel. Its subscriptions are not looked
at. -/
def dismiss (s : Server ε χ) (client : ClientHandle) (channel : ChannelId) : Server ε χ :=
  closeChannel { s with roster := s.roster.detach client } channel

/-- Changes the state of a client (`Roster.setState`). -/
def setState (s : Server ε χ) (client : ClientHandle) (state : ClientState) : Server ε χ :=
  { s with roster := s.roster.setState client state }

/-- Queues the session of a client that was answered (`Queue.push?`). Where the queue is full the
client waits and nothing is done; where it is closed, the session is handed back, so the client is
dismissed again. A client that waits goes on from here, whatever happened in between. -/
def enqueue (s : Server ε χ) (w : Waiter ε) : Enrolment ε (Except Error Bool) × Server ε χ :=
  match s.queue.push? w.session with
  | none => (.waiting w, s)
  | some (.returned _, queue) =>
    (.settled (.ok false), ({ s with queue }.hangUp w.session.line w.session.responses).dismiss
      w.session.client w.channel)
  | some (.done, queue) => (.settled (.ok true), { s with queue })

/-- Takes a client in. A client whose id is taken is refused at once, be the queue full or not. Any
other is made present and answered, and only then does its session go into the queue
(`Server.enqueue`), where it may have to wait. Gives whether the client was taken in, or the error
that kept it from being answered. Operation: `admit`. -/
def enrol (s : Server ε χ) (id : String) (requests : Inlet ε) (responses : Sink) (line : String)
    (channel : ChannelId) : Enrolment ε (Except Error Bool) × Server ε χ :=
  let (client, roster) := s.roster.add id channel
  match roster.insert client with
  | (false, _) =>
    let (error, responses, s) := s.reply line responses ⟨.connect, .failed⟩
    match error with
    | some e => (.settled (.error e), s.hangUp line responses)
    | none => (.settled (.ok false), (s.closeChannel channel).hangUp line responses)
  | (true, roster) =>
    let s := { s with roster }
    let (error, responses, s) := s.reply line responses ⟨.connect, .ok⟩
    match error with
    | some e => (.settled (.error e), (s.dismiss client channel).hangUp line responses)
    | none => s.enqueue ⟨⟨client, requests, responses, line⟩, channel⟩

/-- The sink that writes into what was opened, a file from its start. -/
def sinkOf : Opened → Sink
  | .file number => { cursor := some ⟨number, 0⟩ }
  | _ => {}

/-- Opens the pipes of a registration, in order, up to the first that cannot be opened
(`Fifo.openRead`, `Fifo.openWrite`). -/
def openPipes (r : Registration) (files : FileSystem) :
    Except Error (Opened × Opened × Opened) := do
  let request ← Fifo.openRead r.request files
  let response ← Fifo.openWrite r.response files
  let notification ← Fifo.openWrite r.notification files
  return (request, response, notification)

/-- Takes in the client that a registration names: opens its pipes (`openPipes`) and takes it in
(`Server.enrol`). Its response line goes by the path of the pipe. Gives the error that kept it from
being taken in, if there was one. Operation: `register`. -/
def register (s : Server ε χ) (r : Registration) : Enrolment ε (Option Error) × Server ε χ :=
  match openPipes r s.engine.files with
  | .error e => (.settled (some e), s)
  | .ok (request, response, notification) =>
    let (channel, s) := s.openChannel (sinkOf notification)
    let (enrolment, s) :=
      s.enrol r.clientId (.opened request) (sinkOf response) r.response.shown channel
    (enrolment.map fun
      | .ok _ => none
      | .error e => some e, s)

/-- Drops a client: its subscriptions end, its channel is closed, and its id is free again. To drop
a client twice is to drop it once. Operation: `release`. -/
def release (s : Server ε χ) (client : ClientHandle) : Server ε χ :=
  match s.roster.record? client with
  | none => s
  | some record =>
    if record.state = .closed then s
    else
      let s := s.setState client .disconnecting
      let s := { s with engine := (s.engine.removeAll record.id).2 }
      (s.dismiss client record.channel).setState client .closed

/-! ## What the operations leave alone -/

/-- Bytes that leave by `emitResponse` do not touch the table. -/
@[simp] theorem table_emitResponse (s : Server ε χ) (line : String) (out : Sink)
    (emitted : Option Bytes) : (s.emitResponse line out emitted).engine.table = s.engine.table := by
  simp [emitResponse]

/-- Bytes that leave by `emitResponse` do not touch the channels. -/
@[simp] theorem channels_emitResponse (s : Server ε χ) (line : String) (out : Sink)
    (emitted : Option Bytes) :
    (s.emitResponse line out emitted).engine.channels = s.engine.channels := by
  simp [emitResponse]

/-- Bytes that leave by `emitResponse` do not touch the clients. -/
@[simp] theorem roster_emitResponse (s : Server ε χ) (line : String) (out : Sink)
    (emitted : Option Bytes) : (s.emitResponse line out emitted).roster = s.roster := rfl

/-- Bytes that leave by `emitResponse` do not touch the queue. -/
@[simp] theorem queue_emitResponse (s : Server ε χ) (line : String) (out : Sink)
    (emitted : Option Bytes) : (s.emitResponse line out emitted).queue = s.queue := rfl

/-! ## Dropping a client -/

/-- To `release` a client that is gone changes nothing, so a session that ended by a request may end
again. -/
theorem release_of_closed {s : Server ε χ} {client : ClientHandle} {record : ClientRecord}
    (hrecord : s.roster.record? client = some record) (hclosed : record.state = .closed) :
    s.release client = s := by
  rw [release, hrecord]
  simp only [hclosed, if_true]

/-- To `release` a client that is not gone is to end its subscriptions, to make it absent, to close
its channel, and to mark its record. -/
theorem release_of_not_closed {s : Server ε χ} {client : ClientHandle} {record : ClientRecord}
    (hrecord : s.roster.record? client = some record) (hstate : record.state ≠ .closed) :
    s.release client = { s with
      engine := (s.engine.removeAll record.id).2.closeChannel record.channel
      roster := (s.roster.detach client).setState client .closed } := by
  rw [release, hrecord]
  simp only [hstate, if_false]
  rw [← Roster.setState_setState (s.roster.detach client) client .disconnecting .closed]
  rfl

end Server

end KeyWatch
