import KeyWatch.Text.Quoted
import KeyWatch.Text.Utf8
import KeyWatch.Wire.Code

/-!
# Errors

An error is its cause. The causes are grouped by area (`Area`), each area has a heading, and the
wording of every cause stands in this module alone: `Error.message` is the heading around
`Error.detail`. Two questions are asked of an error: whether the operation may simply be tried again
(`Error.isInterrupted`) and whether the other side has gone (`Error.isDisconnect`).
-/

namespace KeyWatch

/-- The kinds of failure of a read, a write or a file operation, as far as the store tells them
apart or shows them. -/
inductive IoKind where
  | interrupted
  | unexpectedEof
  | brokenPipe
  | connectionReset
  | connectionAborted
  | connectionRefused
  | notConnected
  | wouldBlock
  | timedOut
  | permissionDenied
  | notFound
  | alreadyExists
  | invalidInput
  | invalidData
  | writeZero
  | other
  deriving DecidableEq, Repr

/-- What a failure of a kind is called when nothing more is known of it (`IoFault.ofKind`). -/
def IoKind.description : IoKind → String
  | interrupted => "operation interrupted"
  | unexpectedEof => "unexpected end of file"
  | brokenPipe => "broken pipe"
  | connectionReset => "connection reset"
  | connectionAborted => "connection aborted"
  | connectionRefused => "connection refused"
  | notConnected => "not connected"
  | wouldBlock => "operation would block"
  | timedOut => "timed out"
  | permissionDenied => "permission denied"
  | notFound => "entity not found"
  | alreadyExists => "entity already exists"
  | invalidInput => "invalid input parameter"
  | invalidData => "invalid data"
  | writeZero => "write zero"
  | other => "other error"

/-- Whether a failure of this kind means that the other side has gone, which `Error.ofIo` keeps
recognisable. -/
def IoKind.isDisconnect : IoKind → Bool
  | unexpectedEof | brokenPipe | connectionReset | connectionAborted => true
  | _ => false

/-- A failure of a read, a write or a file operation: its kind and its wording. -/
structure IoFault where
  kind : IoKind
  text : String
  deriving DecidableEq, Repr

/-- The failure of which only the kind is known; its wording is `IoKind.description`. -/
def IoFault.ofKind (kind : IoKind) : IoFault := ⟨kind, kind.description⟩

/-- Why a frame cannot be written or read, with all that its wording names
(`ProtocolFault.message`). -/
inductive ProtocolFault where
  | tooLong (field : String) (size limit : Nat)
  | notText (field : String) (fault : Utf8.Fault)
  | pathNotText (field : String)
  | pathSize (field : String) (limit size : Nat)
  | pathBlank (field : String)
  | badClientId (id : String)
  | longClientId (id : String)
  | malformedRegistration (text : String)
  | emptyRequest
  | shortKey (expected size : Nat)
  | shortResponse (expected size : Nat)
  | unknownOp (byte : UInt8)
  | unknownResult (byte : UInt8)
  | notConnect (answered : OpCode)
  | mismatched (asked answered : OpCode)
  deriving DecidableEq, Repr

/-- Why a pipe or channel cannot be used. Paths are held as they are shown (`Path.shown`). -/
inductive TransportFault where
  | failed (context : String) (fault : IoFault)
  | notFifo (path : String)
  | nulInPath (path : String)
  | channelClosed
  | refused (id : String)
  | responseClosed
  | streamTaken
  deriving DecidableEq, Repr

/-- Why a line is no command (`Job.Command.parse`): no command starts it, or something stands behind
the command. Both hold the rest of the line. -/
inductive ParseFault where
  | noCommand (input : String)
  | trailing (rest : String)
  deriving DecidableEq, Repr

/-- Why a snapshot is not written: its file cannot be made, its bytes do not all reach the file, or
it was finished before. -/
inductive BackupFault where
  | creating (path : String) (fault : IoFault)
  | flushing (fault : IoFault)
  | alreadyFinished
  deriving DecidableEq, Repr

/-- What is wrong with the settings (`Config.fault?`), with the jobs directory or with a job's
name. -/
inductive ConfigFault where
  | zero (setting : String)
  | noJobsDirectory (path : String)
  | badJobName (path : String)
  | unreadableJobs (path : String) (fault : IoFault)
  deriving DecidableEq, Repr

/-- A byte as two hexadecimal digits, as the wording of an unknown code shows it. -/
def hexByte (b : UInt8) : String :=
  String.ofList [Nat.digitChar (b.toNat / 16), Nat.digitChar (b.toNat % 16)]

/-- The wording of a fault of a frame. What the fault holds as a text from outside is shown in
quotes (`Text.quoted`). -/
def ProtocolFault.message : ProtocolFault → String
  | tooLong field size limit =>
    field ++ " too long: " ++ toString size ++ " bytes (max " ++ toString limit ++ ")"
  | notText field fault => field ++ " is not valid UTF-8: " ++ fault.message
  | pathNotText field => field ++ " is not valid UTF-8"
  | pathSize field limit size =>
    field ++ " must be 1..=" ++ toString limit ++ " bytes, got " ++ toString size
  | pathBlank field => field ++ " contains whitespace"
  | badClientId id => "invalid client id " ++ Text.quoted id
  | longClientId id => "client id too long: " ++ Text.quoted id
  | malformedRegistration text => "malformed registration frame: " ++ Text.quoted text
  | emptyRequest => "empty request frame"
  | shortKey expected size =>
    "incomplete key (expected " ++ toString expected ++ ", got " ++ toString size ++ ")"
  | shortResponse expected size =>
    "Incomplete response: expected " ++ toString expected ++ " bytes, got " ++ toString size
  | unknownOp byte => "Unknown op-code: 0x" ++ hexByte byte
  | unknownResult byte => "Unknown result: 0x" ++ hexByte byte
  | notConnect answered => "expected CONNECT response, got " ++ answered.name
  | mismatched asked answered =>
    "expected " ++ asked.name ++ " response, got " ++ answered.name

/-- The wording of a fault of a pipe or channel. That of an operation that failed names what was
being done. -/
def TransportFault.message : TransportFault → String
  | failed context fault => context ++ ": " ++ fault.text
  | notFifo path => path ++ " exists and is not a FIFO"
  | nulInPath path => path ++ " contains a NUL byte"
  | channelClosed => "notification channel closed"
  | refused id => "server refused client id " ++ Text.quoted id
  | responseClosed => "server closed the response FIFO"
  | streamTaken => "notification stream already taken"

/-- The wording of a fault of a command line, which shows the input from the point where no command
fitted. -/
def ParseFault.message : ParseFault → String
  | noCommand input =>
    "Error(Error \x7b input: " ++ Text.quoted input ++ ", code: Tag \x7d)"
  | trailing rest =>
    "Error(Error \x7b input: " ++ Text.quoted rest ++ ", code: Eof \x7d)"

/-- The wording of a fault of a backup, around that of the failure behind it. -/
def BackupFault.message : BackupFault → String
  | creating path fault => "creating " ++ path ++ ": " ++ fault.text
  | flushing fault => "flushing snapshot: " ++ fault.text
  | alreadyFinished => "snapshot already finished"

/-- The wording of a fault of the settings, which names the setting or the path. -/
def ConfigFault.message : ConfigFault → String
  | zero setting => setting ++ " must be at least 1"
  | noJobsDirectory path => "jobs directory " ++ path ++ " does not exist"
  | badJobName path => "bad job file name " ++ path
  | unreadableJobs path fault => "reading " ++ path ++ ": " ++ fault.text

/-- An error of the store, by cause. What is said of it follows from the cause (`Error.message`),
and so do the answers to the two questions asked of it. -/
inductive Error where
  | io (fault : IoFault)
  | interrupted (context : String)
  | transport (fault : TransportFault)
  | protocol (fault : ProtocolFault)
  | invalidKey (key : String)
  | parse (fault : ParseFault)
  | backup (fault : BackupFault)
  | config (fault : ConfigFault)
  deriving DecidableEq, Repr

/-- The areas that errors belong to (`Error.area`), each with a heading of its own
(`Area.message`). -/
inductive Area where
  | io
  | interrupted
  | transport
  | protocol
  | invalidKey
  | parse
  | backup
  | config
  deriving DecidableEq, Repr

/-- A detail under the heading of its area. -/
def Area.message (detail : String) : Area → String
  | io => "IO error: " ++ detail
  | interrupted => "Interrupted while " ++ detail
  | transport => "Transport error: " ++ detail
  | protocol => "Protocol error: " ++ detail
  | invalidKey => "Key " ++ Text.quoted detail ++ " cannot be routed to a bucket"
  | parse => "Invalid command: " ++ detail
  | backup => "Backup failed: " ++ detail
  | config => "Configuration error: " ++ detail

namespace Error

/-- The area of an error, which decides the heading of its wording. -/
def area : Error → Area
  | io _ => .io
  | interrupted _ => .interrupted
  | transport _ => .transport
  | protocol _ => .protocol
  | invalidKey _ => .invalidKey
  | parse _ => .parse
  | backup _ => .backup
  | config _ => .config

/-- The wording of an error without the heading of its area. -/
def detail : Error → String
  | io fault => fault.text
  | interrupted context => context
  | transport fault => fault.message
  | protocol fault => fault.message
  | invalidKey key => key
  | parse fault => fault.message
  | backup fault => fault.message
  | config fault => fault.message

/-- The wording of an error: its `detail` under the heading of its `area`. -/
def message (e : Error) : String := e.area.message e.detail

/-- The kind of failure behind an error that is a failure kept as it struck, and `none` for any
other. -/
def ioKind? : Error → Option IoKind
  | io fault => some fault.kind
  | _ => none

/-- Whether the error is an interruption, after which the operation may simply be tried again.
Operation: `is_interrupted`. -/
def isInterrupted (e : Error) : Bool :=
  e.area == .interrupted || e.ioKind? == some .interrupted

/-- Whether the error says that the other side has gone (`IoKind.isDisconnect`). Operation:
`is_disconnect`. -/
def isDisconnect (e : Error) : Bool :=
  e.ioKind?.any IoKind.isDisconnect

/-- The error that a failure is when it strikes while doing what the context names. An interruption
and a vanished peer stay recognisable (`Error.isInterrupted`, `Error.isDisconnect`); anything else
is a fault of the transport. Operation: `from_io`. -/
def ofIo (fault : IoFault) (context : String) : Error :=
  if fault.kind = .interrupted then .interrupted context
  else if fault.kind.isDisconnect then .io fault
  else .transport (.failed context fault)

end Error

/-- What is told of an error (`Error.report`): its area, its wording, and the answers to the two
questions. -/
structure Report where
  area : Area
  message : String
  interrupted : Bool
  disconnect : Bool

/-- All that is told of an error whose cause is known. -/
def Error.report (e : Error) : Report :=
  ⟨e.area, e.message, e.isInterrupted, e.isDisconnect⟩

/-- What is told of an error of which only the area and the detail are known. It is taken for an
interruption by its area alone, and never for a vanished peer. -/
def Area.report (area : Area) (detail : String) : Report :=
  ⟨area, area.message detail, area == .interrupted, false⟩

end KeyWatch
