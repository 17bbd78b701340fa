import KeyWatch.Proofs.Network.Orderly

/-!
# Calls and responses stay paired

In whatever order clients come, call and go, and the server takes them in, serves them and changes
its table, every client reads first the answer to its registration and then, of each call, the
server's answer to the request of just that call (`Meeting.paired_of_leads`). So no response is of
another operation than the one called, and no session ends with an error. A call whose key is too
long leaves everything as it was.

Who waits for a response waits for a worker at most (`Meeting.Sound.awaited`): the dialogue can go
on, or a session stands in the queue for a worker to take.
-/

namespace KeyWatch.Meeting

variable {m : Meeting} {held : Backlog (Session Empty)} {label : String}

/-! ## Who waits -/

/-- While sessions wait in a tidy network the server can take the next by `begin?`. -/
theorem exists_begin? {n : Network} (h : n.Tidy held) (hsome : held.items ≠ []) :
    ∃ after, n.begin? = some after := by
  cases hitems : held.items with
  | nil => exact absurd hitems hsome
  | cons session rest =>
    obtain ⟨queue, hpop, -⟩ := h.queue.pop hitems
    simp only [Network.begin?, hpop]
    split
    · exact ⟨_, rfl⟩
    · exact ⟨_, rfl⟩

/-- The dialogue of a client that waits can go on by a `Move`, or else the server can take a session
from the queue. -/
theorem Sound.awaited (h : m.Sound held) {p : Party} (hp : m.network.party? label = some p)
    (hwaits : Posture.of (m.dialogue label) = .joining ∨
      ∃ r, Posture.of (m.dialogue label) = .calling r) :
    (∃ x after, m.Move ⟨after, m.past ++ [(label, x)]⟩) ∨
      ∃ after, m.network.begin? = some after := by
  obtain ⟨stage, hstage, hagrees⟩ := h.dialogues label
  have hposture := hstage.posture
  rw [hposture] at hwaits
  cases hagrees p hp with
  | joined hservice hline hrequests hresponses =>
    have hwilling : Sink.Willing {} := ⟨nofun, rfl, rfl, rfl⟩
    have hqueue : (m.network.server.openChannel {}).2.queue.Holds held := h.tidy.queue
    obtain ⟨w, s, hfull, -⟩ | ⟨s, henrol, -⟩ | ⟨s, session, henrol, -⟩ :=
      Server.enrol_of_willing hqueue h.tidy.open hwilling p.connection.id (.opened .fifo) p.line
        (m.network.server.openChannel {}).1
    · refine .inr (exists_begin? h.tidy fun hnone => ?_)
      -- a queue without items would not be full
      have hbound := (hqueue.isFull_iff h.tidy.open).1 hfull
      rw [hnone] at hbound
      exact absurd (hbound ▸ hqueue.consume) (Nat.not_lt_zero _)
    · exact .inl ⟨_, _, .enrol hstage.eq_of_joined (Network.enrol?_of_party hp henrol)⟩
    · exact .inl ⟨_, _, .enrol hstage.eq_of_joined (Network.enrol?_of_party hp henrol)⟩
  | admitted _ _ hresponses | refused _ hresponses =>
    have hread := Client.Connection.greet?_of_encode hresponses
    exact .inl ⟨_, _, .greet hposture (Network.greet?_of_party hp hread)⟩
  | @asked r frame hattached hcall hframe hrequests hresponses =>
    cases hattached with
    | waiting hservice hline =>
      refine .inr (exists_begin? h.tidy fun hnone => ?_)
      rw [hnone] at hline
      cases hline
    | serving hservice hsession hready hline =>
      have hcontent : p.connection.requests.content = frame ++ [] := by
        rw [hrequests, List.append_nil]
        rfl
      have hread := Request.receive?_of_encode hframe hcontent
      exact .inl ⟨_, _, .serve (Network.serve?_eq hp hservice hread)
        (Network.turn?_of_party hp hservice hread)⟩
  | answered hmore hop hattached hrequests hresponses =>
    have hread := Client.Connection.hear?_of_encode (congrArg Pipe.content hresponses)
    rw [hop] at hread
    exact .inl ⟨_, _, .hear hposture (Network.hear?_of_party hp hread)⟩
  | parted hop hdetached hresponses =>
    have hread := Client.Connection.hear?_of_encode hresponses
    rw [hop] at hread
    exact .inl ⟨_, _, .hear hposture (Network.hear?_of_party hp hread)⟩
  | free | left | noticed | gone =>
    obtain hjoining | ⟨r, hcalling⟩ := hwaits
    · cases hjoining
    · cases hcalling

/-! ## What is read is the answer -/

/-- A dialogue in which calls and answers are paired, between a client and the server as they are
now (`Meeting.dialogue`). -/
structure Paired (m : Meeting) (label : String) : Prop where
  /-- every exchange follows on those before it -/
  ordered : ∃ stage, Dialogue (m.dialogue label) stage
  /-- the first response that is read is the answer to the registration -/
  greeted : ∀ log refusal rest, m.dialogue label = log ++ .greeted refusal :: rest →
    log = [.came, .admitted (.ok true)] ∧ refusal = none ∨
      log = [.came, .admitted (.ok false)] ∧ ∃ id, refusal = some (.transport (.refused id))
  /-- what a call reads is the server's answer to the request of that call -/
  heard : ∀ log result rest, m.dialogue label = log ++ .heard result :: rest →
    ∃ before r answer ending,
      log = before ++ [.asked r, .served (.ok (some r.beforeNul)) (some answer) ending] ∧
        answer.op = r.op ∧ result = .ok answer.result
  /-- the server reads whole requests, or that there are no more, and a session that ends with one
  ends in good order -/
  served : ∀ read answer ending, .served read answer ending ∈ m.dialogue label →
    (∃ request, read = .ok request) ∧ ∀ result, ending = some result → ∃ how, result = .ok how
  /-- a session that is over has ended in good order -/
  ended : ∀ p result, m.network.party? label = some p → p.service = .ended result →
    ∃ how, result = .ok how
  /-- a call is withheld just if its key is too long, and then nothing is written -/
  withheld : ∀ r e after, m.network.party? label ≠ none →
    (m.network.ask label r = some (some e, after) ↔ after = m.network ∧
      ∃ key, (r = .subscribe key ∨ r = .unsubscribe key) ∧ maxTextSize < key.utf8ByteSize ∧
        e = .protocol (.tooLong "key" key.utf8ByteSize maxTextSize))
  /-- while a client waits its dialogue can go on, or the server can take a session from the
  queue -/
  awaited : ∀ p, m.network.party? label = some p →
    (Posture.of (m.dialogue label) = .joining ∨ ∃ r, Posture.of (m.dialogue label) = .calling r) →
    (∃ x after, m.Move ⟨after, m.past ++ [(label, x)]⟩) ∨ ∃ after, m.network.begin? = some after

/-- A call is withheld by `Network.ask` just if its key is too long, and then the network is as it
was. -/
theorem withheld_iff {n after : Network} {r : Request} {e : Error} (hp : n.party? label ≠ none) :
    n.ask label r = some (some e, after) ↔ after = n ∧
      ∃ key, (r = .subscribe key ∨ r = .unsubscribe key) ∧ maxTextSize < key.utf8ByteSize ∧
        e = .protocol (.tooLong "key" key.utf8ByteSize maxTextSize) := by
  refine ⟨exists_of_ask, ?_⟩
  rintro ⟨rfl, key, hr, hlong, rfl⟩
  obtain ⟨p, hp⟩ := Option.ne_none_iff_exists'.1 hp
  simp only [Network.ask, hp, Option.map_some, Client.Connection.ask_of_lt hr hlong]

/-- In a meeting that is sound all calls are paired with their answers (`Paired`). -/
theorem Sound.paired (h : m.Sound held) (label : String) : m.Paired label := by
  obtain ⟨stage, hstage, hagrees⟩ := h.dialogues label
  refine ⟨⟨stage, hstage⟩, fun log refusal rest heq => ?_, fun log result rest heq => ?_,
    fun read answer ending hmem => ?_, fun p result hp hended => ?_,
    fun r e after hp => withheld_iff hp, fun p hp hwaits => h.awaited hp hwaits⟩
  · rw [heq] at hstage
    obtain ⟨before, next, hbefore, hstep⟩ := hstage.exists_step
    cases hstep with
    | greeted => exact .inl ⟨hbefore.eq_of_admitted, rfl⟩
    | refused id => exact .inr ⟨hbefore.eq_of_admitted, id, rfl⟩
  · rw [heq] at hstage
    obtain ⟨before, next, hbefore, hstep⟩ := hstage.exists_step
    cases hstep with
    | heard | parted =>
      obtain ⟨earlier, hlog, hop⟩ := hbefore.exists_eq_of_answered
      exact ⟨earlier, _, _, _, hlog, hop, rfl⟩
  · obtain ⟨log, rest, heq⟩ := List.append_of_mem hmem
    rw [heq] at hstage
    obtain ⟨before, next, -, hstep⟩ := hstage.exists_step
    cases hstep with
    | served =>
      refine ⟨⟨_, rfl⟩, fun result hresult => ?_⟩
      split at hresult
      · cases hresult
        exact ⟨_, rfl⟩
      · cases hresult
    | noticed => exact ⟨⟨_, rfl⟩, fun result hresult => ⟨.hangup, (Option.some.inj hresult).symm⟩⟩
  · cases hagrees p hp with
    | joined hservice => cases hservice.symm.trans hended
    | refused hdetached | parted _ hdetached | noticed hdetached | gone hdetached =>
      obtain hservice | ⟨how, hservice⟩ := hdetached.service
      · cases hservice.symm.trans hended
      · cases hservice.symm.trans hended
        exact ⟨how, rfl⟩
    | admitted hattached | free hattached | asked hattached | answered _ _ hattached
    | left hattached => exact absurd hended (hattached.service_ne result)

/-- Wherever moves lead from a network that is started by `Network.start`, any number of clients
have come and each has called and gone as it liked, and all their calls are paired with the server's
answers (`Paired`). What a client reads first is the answer to its registration. What a call reads
is the answer that the server gave to the request of just that call, and is of the operation called.
No session has ended with an error. A call is withheld just if its key is too long, and then
everything stays as it was. And a client waits for its turn at a worker at most. -/
theorem paired_of_leads {workers : Nat} {engine : Engine} {job : Job.State} {directory : Path}
    {n : Network} (hsent : engine.sent = [])
    (hstart : Network.start workers engine job directory = .ok n) (hleads : Leads ⟨n, []⟩ m)
    (label : String) : m.Paired label := by
  obtain ⟨held, hsound⟩ := (Sound.start hsent hstart).leads hleads
  exact hsound.paired label

/-- The files of the bare file system with the pipe for registrations (`Fifo.create`). -/
def pipes : FileSystem := (Fifo.create (Network.register ⟨[]⟩) .bare).toOption.getD .bare

/-- In the bare file system there is room for the pipe for registrations (`pipes`). -/
theorem create_bare : Fifo.create (Network.register ⟨[]⟩) .bare = .ok pipes := by
  have hpath : FileSystem.names (Network.register ⟨[]⟩) = [Utf8.encode "register"] ∧
      FileSystem.check (Network.register ⟨[]⟩) = .ok () ∧
      FileSystem.asksDirectory (Network.register ⟨[]⟩) = false ∧
      FileSystem.start (Network.register ⟨[]⟩) (FileSystem.working .bare) =
        [Utf8.encode "work"] ∧
      0 ∉ (Network.register ⟨[]⟩).bytes :=
    ⟨by decide +kernel, rfl, rfl, rfl, by decide +kernel⟩
  have hname : Utf8.encode "register" ≠ Path.here ∧ Utf8.encode "register" ≠ Path.above ∧
      ¬FileSystem.maxNameSize < (Utf8.encode "register").length := by decide +kernel
  have hworking : FileSystem.node? .bare [Utf8.encode "work"] = some .directory := rfl
  have hfree : FileSystem.node? .bare [Utf8.encode "work", Utf8.encode "register"] = none := rfl
  have hslot : FileSystem.slot .bare false (Network.register ⟨[]⟩) =
      .ok ⟨[Utf8.encode "work", Utf8.encode "register"], none, false⟩ := by
    simp [FileSystem.slot, FileSystem.walk, hpath, hname, hworking, hfree, bind, Except.bind, pure,
      Except.pure]
  have hentry : FileSystem.entry? .bare (Network.register ⟨[]⟩) = none := by
    simp [FileSystem.entry?, FileSystem.place, hslot, hpath, bind, Except.bind, pure, Except.pure]
  have hcreate : (Fifo.create (Network.register ⟨[]⟩) .bare).toOption.isSome = true := by
    simp [Fifo.create, Fifo.makeWay, hentry, FileSystem.add, hslot, hpath, bind, Except.bind, pure,
      Except.pure, Except.mapError, Except.toOption]
  cases hfiles : Fifo.create (Network.register ⟨[]⟩) .bare with
  | error e =>
    rw [hfiles] at hcreate
    cases hcreate
  | ok files => rw [pipes, hfiles]; rfl

/-- A network without clients, on the files `pipes` (`paired_of_leads`). -/
def opened : Network :=
  ⟨.ofEngine 1 { Engine.ofFiles 1 .bare with files := pipes } (.start "j" ⟨[]⟩), 1, ⟨[]⟩, .empty,
    none, []⟩

/-- A meeting that goes on, with what happens put behind what has happened (`Meeting.past`). -/
def on (m : Meeting) (next : Option Network) (more : List (String × Exchange)) : Meeting :=
  ⟨next.getD m.network, m.past ++ more⟩

/-- A client's call whose key is too long (`maxTextSize`). -/
def longCall : Request := .subscribe (String.ofList (List.replicate 41 'k'))

/-- The network `opened` when a client has come. -/
def oneCame : Meeting :=
  ⟨{ opened with parties := [("a", ⟨.start "x" (.ofId ⟨[]⟩ "x"), .waiting⟩)] }, [("a", .came)]⟩

/-- The meeting `oneCame` when the client is taken in. -/
def oneAdmitted : Meeting :=
  oneCame.on ((oneCame.network.enrol? "a").map Prod.snd) [("a", .admitted (.ok true))]

/-- The meeting `oneAdmitted` when the client is connected. -/
def oneGreeted : Meeting :=
  oneAdmitted.on ((oneAdmitted.network.greet? "a").map Prod.snd) [("a", .greeted none)]

/-- The meeting `oneGreeted` when the client's first call, `longCall`, is withheld. -/
def oneWithheld : Meeting :=
  oneGreeted.on ((oneGreeted.network.ask "a" longCall).map Prod.snd)
    [("a", .withheld longCall (.protocol (.tooLong "key" 41 40)))]

/-- The meeting `oneWithheld` when the client's second call is under way. -/
def oneAsked : Meeting :=
  oneWithheld.on ((oneWithheld.network.ask "a" (.subscribe "k")).map Prod.snd)
    [("a", .asked (.subscribe "k"))]

/-- The meeting `oneAsked` when the server begins to serve the client. -/
def oneBegun : Meeting := ⟨oneAsked.network.begin?.getD oneAsked.network, oneAsked.past⟩

/-- The pipes of a second client, with a response line of its own (`Client.Paths`). -/
def secondPaths : Client.Paths := .ofId (.ofString "b") "x"

/-- The meeting `oneBegun` when a client of the same id has come. -/
def twoCame : Meeting :=
  ⟨{ oneBegun.network with
    parties := ("b", ⟨.start "x" secondPaths, .waiting⟩) :: oneBegun.network.parties },
    oneBegun.past ++ [("b", .came)]⟩

/-- The meeting `twoCame` when the second client is refused. -/
def twoAnswered : Meeting :=
  twoCame.on ((twoCame.network.enrol? "b").map Prod.snd) [("b", .admitted (.ok false))]

/-- The meeting `twoAnswered` when the call of the first client is answered. -/
def twoServed : Meeting :=
  twoAnswered.on (twoAnswered.network.serve? "a")
    [("a", .served (.ok (some (.subscribe "k"))) (some ⟨.subscribe, .failed⟩) none)]

/-- The meeting `twoServed` when the first client has read the answer. -/
def twoHeard : Meeting :=
  twoServed.on ((twoServed.network.hear? "a" .subscribe).map Prod.snd)
    [("a", .heard (.ok .failed))]

/-- An option is known from its first component, with whatever its second is (`Option.getD`). -/
theorem eq_some_of_fst {α β : Type} {o : Option (α × β)} {a : α} {b : β}
    (h : o.map Prod.fst = some a) : o = some (a, (o.map Prod.snd).getD b) := by
  obtain ⟨⟨_, _⟩, rfl, rfl⟩ := Option.map_eq_some_iff.1 h
  rfl

/-- The meeting `twoHeard` is one to which moves lead from `opened`. -/
theorem leads_twoHeard : Leads ⟨opened, []⟩ twoHeard := by
  have hother : ∀ party ∈ oneBegun.network.parties, party.2.line ≠ secondPaths.response.shown := by
    decide +kernel
  have hcame : Move ⟨opened, []⟩ oneCame :=
    .join rfl fun other q hq => absurd hq (Option.some_ne_none q).symm
  have hadmitted : Move oneCame oneAdmitted := .enrol rfl (eq_some_of_fst (by decide +kernel))
  have hgreeted : Move oneAdmitted oneGreeted :=
    .greet (by decide +kernel) (eq_some_of_fst (by decide +kernel))
  have hwithheld : Move oneGreeted oneWithheld :=
    .withhold (by decide +kernel) nofun (eq_some_of_fst (by decide +kernel))
  have hasked : Move oneWithheld oneAsked :=
    .ask (by decide +kernel) nofun (eq_some_of_fst (by decide +kernel))
  have hbegun : Move oneAsked oneBegun :=
    .begin (Option.getD_of_ne_none (by decide +kernel) _).symm
  have hsecond : Move oneBegun twoCame :=
    .join (by decide +kernel) fun other q hq => hother (other, q) (Network.mem_of_party? hq)
  have hanswered : Move twoCame twoAnswered :=
    .enrol (by decide +kernel) (eq_some_of_fst (by decide +kernel))
  have hserved : Move twoAnswered twoServed :=
    .serve (Option.getD_of_ne_none (by decide +kernel) _).symm (by decide +kernel)
  have hheard : Move twoServed twoHeard :=
    @Move.hear twoServed "a" (.subscribe "k") _ _ (by decide +kernel)
      (eq_some_of_fst (by decide +kernel))
  exact .tail (.tail (.tail (.tail (.tail (.tail (.tail (.tail (.tail (.single hcame) hadmitted)
    hgreeted) hwithheld) hasked) hbegun) hsecond) hanswered) hserved) hheard

/-- Between the request of a client and the answer to it another client comes and is refused
(`twoHeard`). The client reads the answer to its request, and not to the call before, which was
withheld. -/
theorem paired_of_leads_twoHeard :
    (Network.start 1 (.ofFiles 1 .bare) (.start "j" ⟨[]⟩) ⟨[]⟩ = .ok opened ∧
      Leads ⟨opened, []⟩ twoHeard) ∧
    twoHeard.dialogue "a" = [.came, .admitted (.ok true), .greeted none,
      .withheld longCall (.protocol (.tooLong "key" 41 40)), .asked (.subscribe "k"),
      .served (.ok (some (.subscribe "k"))) (some ⟨.subscribe, .failed⟩) none,
      .heard (.ok .failed)] ∧
    twoHeard.dialogue "b" = [.came, .admitted (.ok false)] ∧
    twoHeard.Paired "a" ∧ twoHeard.Paired "b" := by
  have hstart : Network.start 1 (.ofFiles 1 .bare) (.start "j" ⟨[]⟩) ⟨[]⟩ = .ok opened := by
    unfold Network.start
    rw [show (Engine.ofFiles 1 .bare).files = .bare from rfl, create_bare]
    rfl
  refine ⟨⟨hstart, leads_twoHeard⟩, by decide +kernel, by decide +kernel, ?_, ?_⟩
  · exact paired_of_leads rfl hstart leads_twoHeard "a"
  · exact paired_of_leads rfl hstart leads_twoHeard "b"

end KeyWatch.Meeting
