import KeyWatch.Proofs.Network.Parties
import KeyWatch.Proofs.Session.OneLine
import Mathlib.Logic.Relation

/-!
# Dialogues

A client and the server talk in turns: the client registers and is taken in or refused, it reads the
first response, and then each call is a request that it writes, that the server reads and answers,
and of which the client reads the answer. What has happened so far between a client and the server
is their dialogue, a row of exchanges (`Exchange`). A dialogue is in order (`Dialogue`) if each
exchange is one that follows at its stage (`Dialogue.Stage.Step`): what is read is what was written
last, and every answer is that of the request before it.

How the two are made to talk is another matter (`Meeting.Move`). The client keeps to its own part,
which it knows from its own exchanges alone (`Posture`), and reads whatever its pipe gives it. The
server takes a client in, begins sessions and serves them when it can, in any order, and others
change the table in between. To take a client in is what the intake does with its registration, once
the client's pipes are open (`Network.intake?_of_enrol?`); the pipe of the registrations, which all
share, is left out. That all dialogues stay in order is a theorem, not part of this.
-/

namespace KeyWatch

/-- What happens between a client and the server, seen from outside (`Meeting.past`). -/
inductive Exchange where
  /-- the client registers -/
  | came
  /-- the server answers the registration, by taking the client in or not -/
  | admitted (result : Except Error Bool)
  /-- the client reads the first response, which says why it is not connected, if it is not -/
  | greeted (refusal : Option Error)
  /-- the client cannot write the request of a call, and the call is over -/
  | withheld (r : Request) (e : Error)
  /-- the client writes the request of a call -/
  | asked (r : Request)
  /-- the server reads of the client's requests, and answers what it read; the session may end -/
  | served (read : Except Error (Option Request)) (answer : Option Response)
    (ending : Option (Except Error SessionEnd))
  /-- the client reads the response to a call, and the call is over -/
  | heard (result : Except Error ResultCode)
  /-- the client hangs up -/
  | hungUp
  deriving DecidableEq

/-! ## Dialogues in order -/

/-- The stages of a dialogue, each with what is under way (`Stage.Step`). -/
inductive Dialogue.Stage where
  /-- there is no client -/
  | vacant
  /-- the client has registered -/
  | joined
  /-- the registration is answered -/
  | admitted (taken : Bool)
  /-- the client is connected, and nothing is under way -/
  | free
  /-- a request is under way -/
  | asked (r : Request)
  /-- the answer to a request is under way -/
  | answered (r : Request) (answer : Response)
  /-- the client has hung up, and the server has not noticed -/
  | left
  /-- the server has noticed that the client has hung up -/
  | noticed
  /-- the client is refused or has disconnected -/
  | gone

/-- Which exchange may follow at a stage, and the stage that it leads to. A request with a key that
is too long is withheld, and the stage is as it was. The server reads the request that was written,
with its key up to the first NUL (`Request.beforeNul`), and its answer is of the operation asked
for. A session ends in good order, with a request to disconnect or because the client hung up. -/
inductive Dialogue.Stage.Step : Stage → Exchange → Stage → Prop where
  | came : Step .vacant .came .joined
  | admitted (taken : Bool) : Step .joined (.admitted (.ok taken)) (.admitted taken)
  | greeted : Step (.admitted true) (.greeted none) .free
  | refused (id : String) :
      Step (.admitted false) (.greeted (some (.transport (.refused id)))) .gone
  | withheld {r : Request} {key : String} (hr : r = .subscribe key ∨ r = .unsubscribe key)
      (hlong : maxTextSize < key.utf8ByteSize) :
      Step .free (.withheld r (.protocol (.tooLong "key" key.utf8ByteSize maxTextSize))) .free
  | asked {r : Request} {frame : Bytes} (hcall : r ≠ .connect) (hframe : r.encode = .ok frame) :
      Step .free (.asked r) (.asked r)
  | served {r : Request} {answer : Response} (hop : answer.op = r.op) :
      Step (.asked r)
        (.served (.ok (some r.beforeNul)) (some answer)
          (if r = .disconnect then some (.ok .disconnected) else none))
        (.answered r answer)
  | heard {r : Request} {answer : Response} (hmore : r ≠ .disconnect) :
      Step (.answered r answer) (.heard (.ok answer.result)) .free
  | parted {answer : Response} :
      Step (.answered .disconnect answer) (.heard (.ok answer.result)) .gone
  | hungUp : Step .free .hungUp .left
  | noticed : Step .left (.served (.ok none) none (some (.ok .hangup))) .noticed

/-- A dialogue in order, and its stage: every exchange is a `Stage.Step` from those before it. -/
inductive Dialogue : List Exchange → Dialogue.Stage → Prop where
  | nil : Dialogue [] .vacant
  | step {log : List Exchange} {stage next : Dialogue.Stage} {x : Exchange}
      (h : Dialogue log stage) (hstep : stage.Step x next) : Dialogue (log ++ [x]) next

namespace Dialogue

variable {log rest : List Exchange} {stage : Stage} {x : Exchange}

/-- The last exchange of a dialogue in order follows on those before it (`Stage.Step`). -/
theorem exists_step_last (h : Dialogue (log ++ [x]) stage) :
    ∃ before, Dialogue log before ∧ before.Step x stage := by
  generalize hwhole : log ++ [x] = whole at h
  cases h with
  | nil => cases List.append_ne_nil_of_right_ne_nil log (List.cons_ne_nil x []) hwhole
  | @step _ before _ _ hbefore hstep =>
    obtain ⟨rfl, hx⟩ := List.append_inj' hwhole rfl
    cases hx
    exact ⟨before, hbefore, hstep⟩

/-- Every exchange of a dialogue in order follows on those before it (`Stage.Step`). -/
theorem exists_step (h : Dialogue (log ++ x :: rest) stage) :
    ∃ before next, Dialogue log before ∧ before.Step x next := by
  induction rest using List.reverseRecOn generalizing stage with
  | nil =>
    obtain ⟨before, hbefore, hstep⟩ := h.exists_step_last
    exact ⟨before, stage, hbefore, hstep⟩
  | append_singleton rest y ih =>
    rw [← List.cons_append, ← List.append_assoc] at h
    obtain ⟨before, hbefore, -⟩ := h.exists_step_last
    exact ih hbefore

/-- A dialogue in which nothing has happened is at the stage `vacant`: there is no client. -/
theorem eq_vacant (h : Dialogue [] stage) : stage = .vacant := by
  generalize hnil : [] = log at h
  cases h with
  | nil => rfl
  | step => cases List.append_ne_nil_of_right_ne_nil _ (List.cons_ne_nil _ _) hnil.symm

/-- A dialogue in which a client has come is at the stage `joined`: it waits to be taken in. -/
theorem eq_joined (h : Dialogue [.came] stage) : stage = .joined := by
  obtain ⟨before, hbefore, hstep⟩ : ∃ before, Dialogue [] before ∧ before.Step .came stage :=
    exists_step_last h
  obtain rfl := hbefore.eq_vacant
  cases hstep
  rfl

/-- In a dialogue at the stage `joined` the client has done nothing but come. -/
theorem eq_of_joined (h : Dialogue log .joined) : log = [.came] := by
  cases h with
  | step hvacant hcame =>
    cases hcame
    cases hvacant with
    | nil => rfl
    | step _ hstep => cases hstep

/-- In a dialogue at the stage `admitted` the client has come and the server has answered, and
nothing else has happened. -/
theorem eq_of_admitted {taken : Bool} (h : Dialogue log (.admitted taken)) :
    log = [.came, .admitted (.ok taken)] := by
  cases h with
  | step hjoined hadmitted =>
    cases hadmitted
    rw [hjoined.eq_of_joined]
    rfl

/-- In a dialogue at the stage `answered` the server answered last the request that was written
last, and its answer is of the operation asked for. -/
theorem exists_eq_of_answered {r : Request} {answer : Response}
    (h : Dialogue log (.answered r answer)) :
    ∃ before, log = before ++ [.asked r, .served (.ok (some r.beforeNul)) (some answer)
        (if r = .disconnect then some (.ok .disconnected) else none)] ∧
      answer.op = r.op := by
  cases h with
  | step hasked hserved =>
    cases hserved with
    | served hop =>
      cases hasked with
      | @step before _ _ _ _ hstep =>
        cases hstep
        exact ⟨before, List.append_assoc _ _ _, hop⟩

end Dialogue

/-! ## What a client knows -/

/-- What a client is about: it waits for the first response, may call, waits for the response to a
call, has hung up, or is gone otherwise (`Posture.after`). -/
inductive Posture where
  | joining
  | free
  | calling (r : Request)
  | left
  | gone
  deriving DecidableEq

namespace Posture

/-- What a client is about after an `Exchange`. Only its own exchanges count, and after a call to
disconnect it makes no other, whatever the call gave. -/
def after : Posture → Exchange → Posture
  | joining, .greeted none => free
  | joining, .greeted (some _) => gone
  | free, .asked r => calling r
  | free, .withheld r _ => if r = .disconnect then gone else free
  | calling r, .heard _ => if r = .disconnect then gone else free
  | free, .hungUp => left
  | p, _ => p

/-- What a client is about after a dialogue, exchange by exchange (`Posture.after`). -/
def of (log : List Exchange) : Posture := log.foldl after joining

end Posture

/-- What a client is about at a stage (`Posture`). -/
def Dialogue.Stage.posture : Stage → Posture
  | vacant | joined | admitted _ => .joining
  | free => .free
  | asked r | answered r _ => .calling r
  | left | noticed => .left
  | gone => .gone

/-- What a client is about at the next stage it knows from the exchange (`Posture.after`). -/
theorem Dialogue.Stage.Step.posture {stage next : Stage} {x : Exchange} (h : stage.Step x next) :
    stage.posture.after x = next.posture := by
  cases h with
  | withheld hr _ => rcases hr with rfl | rfl <;> rfl
  | heard hmore => exact if_neg hmore
  | came | admitted | greeted | refused | asked | served | parted | hungUp | noticed => rfl

/-- In a dialogue in order the client knows how far it is: what it is about by its own exchanges
(`Posture.of`) is what it is about at the stage. -/
theorem Dialogue.posture {log : List Exchange} {stage : Stage} (h : Dialogue log stage) :
    Posture.of log = stage.posture := by
  induction h with
  | nil => rfl
  | @step log stage next x _ hstep ih =>
    rw [Posture.of, List.foldl_append]
    exact (congrArg (·.after x) ih).trans hstep.posture

/-! ## Meetings -/

namespace Network

/-- The server takes in a party of which the pipes are open (`Server.enrol`), unless the party's
session would have to wait for room in the queue. -/
def enrol? (label : String) (n : Network) : Option (Except Error Bool × Network) := do
  let p ← n.party? label
  let (channel, s) := n.server.openChannel {}
  match s.enrol p.connection.id (.opened .fifo) {} p.line channel with
  | (.settled result, s) => return (n.act fun _ => (result, s))
  | (.waiting _, _) => none

/-- A party reads the first response, if one is there, by `Client.Connection.greet?`. -/
def greet? (label : String) (n : Network) : Option (Option Error × Network) := do
  let p ← n.party? label
  let (refusal, connection) ← p.connection.greet?
  return (refusal, n.update label fun p => { p with connection })

/-- The server's answer to what was read of a session's requests, as `Server.perform` gives it. -/
def answer? (n : Network) (session : Session Empty) :
    Except Error (Option Request) → Option Response
  | .ok (some r) => (n.server.perform session.client r).1
  | _ => none

/-- What the server is about to read of a party's requests, to answer, and to do about the session,
as the exchange that `Network.serve?` makes. -/
def turn? (label : String) (n : Network) : Option Exchange := do
  let p ← n.party? label
  match p.service with
  | .serving session =>
    let (request, _) ← p.connection.requests.receive? Request.read
    return .served request (n.answer? session request)
      (n.server.attend session.client session.line session.responses request).1
  | _ => none

variable {n after : Network} {label : String} {p : Party}

/-- A party that is there is taken in by `enrol?` as `Server.enrol` takes in its client. -/
theorem enrol?_of_party {result : Except Error Bool} {s : Server Empty Job.State}
    (hp : n.party? label = some p)
    (henrol : (n.server.openChannel {}).2.enrol p.connection.id (.opened .fifo) {} p.line
      (n.server.openChannel {}).1 = (.settled result, s)) :
    n.enrol? label = some (result, (n.act fun _ => (result, s)).2) := by
  simp only [enrol?, hp, Option.bind_eq_bind, Option.bind_some, henrol]
  rfl

/-- Only a party that is there is taken in by `enrol?`, and what is done is what `Server.enrol`
does. -/
theorem exists_of_enrol? {result : Except Error Bool}
    (h : n.enrol? label = some (result, after)) : ∃ p s, n.party? label = some p ∧
      (n.server.openChannel {}).2.enrol p.connection.id (.opened .fifo) {} p.line
        (n.server.openChannel {}).1 = (.settled result, s) ∧
      after = (n.act fun _ => (result, s)).2 := by
  simp only [enrol?, Option.bind_eq_bind, Option.bind_eq_some_iff] at h
  obtain ⟨p, hp, h⟩ := h
  split at h
  case h_1 result s henrol =>
    cases h
    exact ⟨p, s, hp, henrol, rfl⟩
  case h_2 => cases h

/-- To take a party in is what the intake (`Network.intake?`) does with its registration once its
pipes are open and no other client waits. -/
theorem intake?_of_enrol? {frame rest : Bytes} {result : Except Error Bool}
    (hp : n.party? label = some p) (halone : n.arriving = none)
    (hcontent : n.registrations.content = frame ++ rest)
    (hlength : frame.length = Registration.frameSize)
    (hdecode : Registration.decode frame =
      .ok (p.connection.paths.registration p.connection.id))
    (hopen : Server.openPipes (p.connection.paths.registration p.connection.id)
      n.server.engine.files = .ok (.fifo, .fifo, .fifo))
    (hgoes : n.server.stopping = false) (htaken : n.enrol? label = some (result, after)) :
    n.intake? =
      some { after with registrations := { n.registrations with content := rest } } := by
  obtain ⟨p', s, hp', henrol, rfl⟩ := exists_of_enrol? htaken
  cases hp.symm.trans hp'
  have hread : n.registrations.receive? Registration.read =
      some (.ok (some (p.connection.paths.registration p.connection.id)),
        { n.registrations with content := rest }) := by
    have hframe := Pipe.receive?_frame "registration" Registration.decode hcontent
    rw [hlength, hdecode] at hframe
    exact hframe
  have hintake := Server.intake_enlist_of_openPipes hgoes hopen
  rw [show (p.connection.paths.registration p.connection.id).clientId = p.connection.id from rfl,
    show (p.connection.paths.registration p.connection.id).response.shown = p.line from rfl,
    henrol] at hintake
  simp only [intake?, halone, hread, Option.map_some, act, hintake]
  rfl

/-- A party that is there reads by `greet?` what its connection reads. -/
theorem greet?_of_party {refusal : Option Error} {connection : Client.Connection}
    (hp : n.party? label = some p) (hread : p.connection.greet? = some (refusal, connection)) :
    n.greet? label = some (refusal, n.update label fun p => { p with connection }) := by
  simp only [greet?, hp, Option.bind_eq_bind, Option.bind_some, hread]
  rfl

/-- A party that is there reads by `hear?` what its connection reads. -/
theorem hear?_of_party {op : OpCode} {result : Except Error ResultCode}
    {connection : Client.Connection} (hp : n.party? label = some p)
    (hread : p.connection.hear? op = some (result, connection)) :
    n.hear? label op = some (result, n.update label fun p => { p with connection }) := by
  simp only [hear?, hp, Option.bind_eq_bind, Option.bind_some, hread]
  rfl

/-- A party that is served is about to exchange by `turn?` what can be read of its requests. -/
theorem turn?_of_party {session : Session Empty} {request : Except Error (Option Request)}
    {requests : Pipe} (hp : n.party? label = some p) (hservice : p.service = .serving session)
    (hread : p.connection.requests.receive? Request.read = some (request, requests)) :
    n.turn? label = some (.served request (n.answer? session request)
      (n.server.attend session.client session.line session.responses request).1) := by
  simp only [turn?, hp, hservice, hread, Option.bind_eq_bind, Option.bind_some]
  rfl

end Network

/-- A network, and what has happened in it so far between clients, by label, and the server
(`Exchange`). -/
structure Meeting where
  network : Network
  past : List (String × Exchange)

namespace Meeting

/-- What has happened so far between a client and the server, each an `Exchange`. -/
def dialogue (m : Meeting) (label : String) : List Exchange :=
  (m.past.filter (·.1 == label)).map Prod.snd

/-- What may happen next. A client comes, under a new label and with a response line that no other
has that is there; the server takes it in (`Network.enrol?`), begins a session, or serves one
(`Network.serve?`); the client reads the first response, makes a call, of which the request may not
be written, reads the response to it, or hangs up; the table changes; and a client that is gone
makes place for another, which may have its response line. -/
inductive Move : Meeting → Meeting → Prop where
  | join {m : Meeting} {label id : String} {paths : Client.Paths} (hnew : m.dialogue label = [])
      (hline : ∀ other q, m.network.party? other = some q → q.line ≠ paths.response.shown) :
      Move m ⟨{ m.network with
        parties := (label, ⟨.start id paths, .waiting⟩) :: m.network.parties },
        m.past ++ [(label, .came)]⟩
  | enrol {m : Meeting} {label : String} {result : Except Error Bool} {after : Network}
      (hcame : m.dialogue label = [.came]) (h : m.network.enrol? label = some (result, after)) :
      Move m ⟨after, m.past ++ [(label, .admitted result)]⟩
  | begin {m : Meeting} {after : Network} (h : m.network.begin? = some after) :
      Move m ⟨after, m.past⟩
  | serve {m : Meeting} {label : String} {after : Network} {x : Exchange}
      (h : m.network.serve? label = some after) (hx : m.network.turn? label = some x) :
      Move m ⟨after, m.past ++ [(label, x)]⟩
  | greet {m : Meeting} {label : String} {refusal : Option Error} {after : Network}
      (hposture : Posture.of (m.dialogue label) = .joining)
      (h : m.network.greet? label = some (refusal, after)) :
      Move m ⟨after, m.past ++ [(label, .greeted refusal)]⟩
  | ask {m : Meeting} {label : String} {r : Request} {after : Network}
      (hposture : Posture.of (m.dialogue label) = .free) (hcall : r ≠ .connect)
      (h : m.network.ask label r = some (none, after)) :
      Move m ⟨after, m.past ++ [(label, .asked r)]⟩
  | withhold {m : Meeting} {label : String} {r : Request} {e : Error} {after : Network}
      (hposture : Posture.of (m.dialogue label) = .free) (hcall : r ≠ .connect)
      (h : m.network.ask label r = some (some e, after)) :
      Move m ⟨after, m.past ++ [(label, .withheld r e)]⟩
  | hear {m : Meeting} {label : String} {r : Request} {result : Except Error ResultCode}
      {after : Network} (hposture : Posture.of (m.dialogue label) = .calling r)
      (h : m.network.hear? label r.op = some (result, after)) :
      Move m ⟨after, m.past ++ [(label, .heard result)]⟩
  | hangUp {m : Meeting} {label : String} (hposture : Posture.of (m.dialogue label) = .free) :
      Move m ⟨m.network.update label fun p =>
        { p with connection := { p.connection with requests := p.connection.requests.close } },
        m.past ++ [(label, .hungUp)]⟩
  | apply {m : Meeting} {α : Type} (f : Table → Effect Table α) :
      Move m ⟨(m.network.apply f).2, m.past⟩
  | leave {m : Meeting} {label : String} (hover : Posture.of (m.dialogue label) = .gone ∨
        ∃ p result, m.network.party? label = some p ∧ p.service = .ended result) :
      Move m ⟨m.network.drop label, m.past⟩

/-- What may happen in any number of moves (`Move`), one after another. -/
abbrev Leads : Meeting → Meeting → Prop := Relation.ReflTransGen Move

end Meeting

end KeyWatch
