import KeyWatch.Client.Paths
import KeyWatch.Pipe.Basic
import KeyWatch.Wire.Notification
import KeyWatch.Wire.Request
import KeyWatch.Wire.Response

/-!
# Connections

To connect, a client makes its pipes, writes its registration (`announce`) and reads the first
response, which says whether the server takes it in (`Connection.greet?`). From then on a call is a
request written and a response read. The response must be that of the operation called
(`answerTo`), and a request that cannot be written is not sent at all (`Connection.ask`). So calls
and responses stay paired.

The notifications are handed out once and are read to the end of their pipe.
-/

namespace KeyWatch.Client

/-- What a client holds while it is connected: its id, the paths of its pipes, the pipes, and
whether the notifications were handed out. -/
structure Connection where
  id : String
  paths : Paths
  requests : Pipe
  responses : Pipe
  notifications : Pipe
  taken : Bool
  deriving DecidableEq, Repr

/-- The registration of a client as bytes (`Registration.encode`), once the pipe that it is written
to is open. -/
def registrationFrame (register : Path) (paths : Paths) (id : String) (fs : FileSystem) :
    Except Error Bytes := do
  let _ ← Fifo.openWrite register fs
  (paths.registration id).encode.mapError .protocol

/-- Makes the pipes of a client and gives the registration to be written; where that fails, no pipe
stays. It is the part of `connect` before the server acts. -/
def announce (register : Path) (paths : Paths) (id : String) (fs : FileSystem) :
    Except Error Bytes × FileSystem :=
  match paths.make fs with
  | (some e, fs) => (.error e, fs)
  | (none, fs) =>
    match registrationFrame register paths id fs with
    | .ok frame => (.ok frame, fs)
    | .error e => (.error e, paths.remove fs)

/-- Why a client is not connected, by the first response, or `none` if it is. Operation:
`handshake`. -/
def refusal (id : String) : Except Error (Option Response) → Option Error
  | .ok (some r) =>
    if r.op = .connect then if r.isOk then none else some (.transport (.refused id))
    else some (.protocol (.notConnect r.op))
  | .ok none => some (.transport .responseClosed)
  | .error e => some e

/-- What a call gives by the response to it, which must be that of the operation called. Operation:
`call`. -/
def answerTo (op : OpCode) : Except Error (Option Response) → Except Error ResultCode
  | .ok (some r) => if r.op = op then .ok r.result else .error (.protocol (.mismatched op r.op))
  | .ok none => .error (.transport .responseClosed)
  | .error e => .error e

namespace Connection

/-- The connection of a client that has registered, before anything was read or written. -/
def start (id : String) (paths : Paths) : Connection :=
  ⟨id, paths, .empty, .empty, .empty, false⟩

/-- Reads the first response, or `none` where it would have to wait: gives why the client is not
connected (`refusal`). -/
def greet? (c : Connection) : Option (Option Error × Connection) :=
  (c.responses.receive? Response.read).map fun (response, responses) =>
    (refusal c.id response, { c with responses })

/-- Writes a request; one that cannot be encoded leaves the connection as it is, so no response is
due. -/
def ask (r : Request) (c : Connection) : Except Error Connection :=
  match r.encode with
  | .ok frame => .ok { c with requests := c.requests.write frame }
  | .error fault => .error (.protocol fault)

/-- Reads the response to a request (`answerTo`), or `none` where it would have to wait. -/
def hear? (op : OpCode) (c : Connection) : Option (Except Error ResultCode × Connection) :=
  (c.responses.receive? Response.read).map fun (response, responses) =>
    (answerTo op response, { c with responses })

/-- Makes a call whose response is there (`Connection.ask`, `Connection.hear?`). Operation:
`call`. -/
def call? (r : Request) (c : Connection) : Option (Except Error ResultCode × Connection) :=
  match c.ask r with
  | .ok c => c.hear? r.op
  | .error e => some (.error e, c)

/-- Makes calls one after another, up to the first that disconnects; stops where a response is not
there. -/
def callAll : List Request → Connection → List (Except Error ResultCode) × Connection
  | [], c => ([], c)
  | r :: rest, c =>
    match c.call? r with
    | none => ([], c)
    | some (result, c) =>
      if r = .disconnect then ([result], c)
      else
        let (results, c) := callAll rest c
        (result :: results, c)

/-- Hands out the notifications, unless they were handed out before. Operation:
`take_notifications`. -/
def takeNotifications (c : Connection) : Except Error Connection :=
  if c.taken then .error (.transport .streamTaken) else .ok { c with taken := true }

/-- The notifications that came, up to the first that cannot be read (`Pipe.values`). Operation:
`next` of the notifications. -/
def news (c : Connection) : List Notification := c.notifications.values Notification.read

end Connection

end KeyWatch.Client
