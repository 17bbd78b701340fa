import KeyWatch.Session.Server

/-!
# Serving sessions

A session is served request by request until the client disconnects, its requests end, or something
fails (`Server.attend`). Each request is answered by the operation it asks for (`Server.perform`),
and only a request to connect, which has no place in a session, is not answered. Whatever way a
session ends, its client is dropped (`Server.finish`). A client that disconnects is dropped before
it is answered, so that its id is free when it reads the answer.

While the session waits for a read, events happen elsewhere: they act on the server before what was
read is looked at.
-/

namespace KeyWatch

/-- How a session ends in good order: the client said so, or its requests ended. -/
inductive SessionEnd where
  | disconnected
  | hangup
  deriving DecidableEq, Repr

/-- What becomes of what the intake of registrations read (`Server.intake`): the intake is over,
with an error or without one; what was read is passed over; or a registration was handed over to be
registered, which may have to wait for something. -/
inductive Intake.Turn (ω : Type) where
  | ended (error : Option Error)
  | passed
  | handed (r : Registration) (wait : Option ω)

/-- How far an intake of registrations has come: it is over, with an error or without one, or it
waits with the registration that it handed over last. -/
inductive Intake.Stage (ω : Type) where
  | ended (error : Option Error)
  | waiting (wait : ω)

/-- What an intake of registrations comes to (`Server.registerAll`): those that it handed over to be
registered, in order; how far it has come; what is left of what it was to read; and the server as it
then is. -/
structure Intake (ω ε χ : Type) where
  handed : List Registration
  stage : Intake.Stage ω
  rest : List (Received ε Registration)
  server : Server ε χ

/-- What the registration waits for, if one was handed over that has to wait. -/
def Intake.Turn.wait? {ω : Type} : Intake.Turn ω → Option ω
  | ended _ | passed => none
  | handed _ wait => wait

namespace Server

variable {ε χ ω : Type}

/-- Lets events act on the server, in order, while a session waits for a read. -/
def react (act : ε → Server ε χ → Server ε χ) (events : List ε) (s : Server ε χ) : Server ε χ :=
  events.foldl (fun s e => act e s) s

/-- Does what a client's request asks for, and gives the answer, which a request to connect does not
get. A key without bucket is answered as failed. -/
def perform (s : Server ε χ) (client : ClientHandle) (r : Request) :
    Option Response × Server ε χ :=
  match r, s.roster.record? client with
  | .connect, _ => (none, s)
  | .disconnect, _ => (some ⟨.disconnect, .ok⟩, s.release client)
  | .subscribe key, some record =>
    match s.engine.subscribe key record.id record.channel with
    | .ok (outcome, engine) => (some ⟨.subscribe, outcome.code⟩, { s with engine })
    | .error _ => (some ⟨.subscribe, .failed⟩, s)
  | .unsubscribe key, some record =>
    let (outcome, engine) := s.engine.unsubscribe key record.id
    (some ⟨.unsubscribe, outcome.code⟩, { s with engine })
  | .subscribe _, none | .unsubscribe _, none => (none, s)

/-- Does what a client's request asks for (`Server.perform`) and answers it (`Server.reply`). Gives
how the session ends, if it ends with the request. -/
def answer (s : Server ε χ) (client : ClientHandle) (line : String) (out : Sink) (r : Request) :
    Option (Except Error SessionEnd) × Sink × Server ε χ :=
  match s.perform client r with
  | (none, s) => (none, out, s)
  | (some response, s) =>
    let (error, out, s) := s.reply line out response
    match error with
    | some e => (some (.error e), out, s)
    | none => (if r = .disconnect then some (.ok .disconnected) else none, out, s)

/-- How a session goes on after an error in its requests: it is ended by any but an interruption
(`Error.isInterrupted`), and in good order if the client has gone (`Error.isDisconnect`). -/
def endOf (e : Error) : Option (Except Error SessionEnd) :=
  if e.isInterrupted then none
  else if e.isDisconnect then some (.ok .hangup)
  else some (.error e)

/-- Acts on what was read of a client's requests (`Server.answer`, `Server.endOf`). Gives how the
session ends, if it ends there. -/
def attend (s : Server ε χ) (client : ClientHandle) (line : String) (out : Sink) :
    Except Error (Option Request) → Option (Except Error SessionEnd) × Sink × Server ε χ
  | .ok none => (some (.ok .hangup), out, s)
  | .ok (some request) => s.answer client line out request
  | .error e => (endOf e, out, s)

/-- Serves what is received, one after another (`Server.attend`), up to the end of the session.
Operation: `serve`. -/
def serveAll (act : ε → Server ε χ → Server ε χ) (client : ClientHandle) (line : String) :
    List (Received ε Request) → Sink → Server ε χ → Except Error SessionEnd × Sink × Server ε χ
  | [], out, s => (.ok .hangup, out, s)
  | received :: rest, out, s =>
    match (s.react act received.events).attend client line out received.result with
    | (some result, out, s) => (result, out, s)
    | (none, out, s) => serveAll act client line rest out s

/-- Ends a session: its client is dropped (`Server.release`) and its response line closed.
Operation: `teardown`. -/
def finish (s : Server ε χ) (client : ClientHandle) (line : String) (out : Sink) : Server ε χ :=
  (s.release client).hangUp line out

/-- Handles a session from its first request to the end of its client (`Server.serveAll`,
`Server.finish`). Operation: `handle`. -/
def handle (act : ε → Server ε χ → Server ε χ) (session : Session ε) (s : Server ε χ) :
    Except Error SessionEnd × Server ε χ :=
  let s := s.setState session.client .active
  let requests := readAll Request.read (session.requests.toSource s.engine.files)
  let (result, out, s) := serveAll act session.client session.line requests session.responses s
  (result, s.finish session.client session.line out)

/-- Takes the next session from the queue and handles it: gives the client's id and how the session
ended, or nothing once the queue is closed and empty; does nothing where it would have to wait. It
is one turn of a worker. Operation: `spawn_session_workers`. -/
def serve? (act : ε → Server ε χ → Server ε χ) (s : Server ε χ) :
    Option (Option (String × Except Error SessionEnd) × Server ε χ) :=
  s.queue.pop?.map fun
    | (none, queue) => (none, { s with queue })
    | (some session, queue) =>
      let (result, after) := handle act session { s with queue }
      (some (s.roster.idOf session.client, result), after)

/-- Hands a registration over to be registered by the server itself (`Server.register`). Gives the
client that waits for room in the queue, if it has to; whether it was taken in is nothing to the
intake. -/
def enlist (r : Registration) (s : Server ε χ) : Option (Waiter ε) × Server ε χ :=
  let (enrolment, s) := s.register r
  (enrolment.waiter?, s)

/-- Acts on what was read of the registrations, with a way to register a client that may have to
wait. A malformed registration and an interruption are passed over, and nothing is handed over any
more once the server was told to stop. -/
def intake (register : Registration → Server ε χ → Option ω × Server ε χ) (s : Server ε χ) :
    Except Error (Option Registration) → Intake.Turn ω × Server ε χ
  | .ok none => (.ended none, s)
  | .error e =>
    if s.stopping then (.ended none, s)
    else if e.isInterrupted || e.area == .protocol then (.passed, s)
    else (.ended (some e), s)
  | .ok (some r) =>
    if s.stopping then (.ended none, s)
    else
      let (wait, s) := register r s
      (.handed r wait, s)

/-- Hands over the registrations received, one after another (`Server.intake`), up to the end of the
intake or to the first one that has to wait. What is left behind that one is for whoever goes on
when it has waited. -/
def registerAll (register : Registration → Server ε χ → Option ω × Server ε χ)
    (act : ε → Server ε χ → Server ε χ) :
    List (Received ε Registration) → Server ε χ → Intake ω ε χ
  | [], s => ⟨[], .ended none, [], s⟩
  | received :: rest, s =>
    match (s.react act received.events).intake register received.result with
    | (.ended error, s) => ⟨[], .ended error, rest, s⟩
    | (.passed, s) => registerAll register act rest s
    | (.handed r (some wait), s) => ⟨[r], .waiting wait, rest, s⟩
    | (.handed r none, s) =>
      let later := registerAll register act rest s
      { later with handed := r :: later.handed }

/-- Takes in the clients of the registrations in a source (`Server.enlist`). Where a client has to
wait for room in the queue the intake waits with it, and the registrations behind it are left to be
handed over. Operation: `serve_registrations`. -/
def serveRegistrations (act : ε → Server ε χ → Server ε χ) (source : Source ε) (s : Server ε χ) :
    Intake (Waiter ε) ε χ :=
  registerAll enlist act (readAll Registration.read source) s

/-- Whether the queue has room for a number of sessions, or takes none, so that none of them would
wait. -/
def hasRoom (s : Server ε χ) (count : Nat) : Bool :=
  s.queue.isClosed || s.queue.size + count ≤ s.queue.capacity

end Server

end KeyWatch
