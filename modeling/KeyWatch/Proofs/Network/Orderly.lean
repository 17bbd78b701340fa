import KeyWatch.Proofs.Network.Dialogue
import KeyWatch.Proofs.Network.Tidy

/-!
# Meetings in good order

A meeting is in good order (`Meeting.Sound`) if its network is, and if each dialogue is at a stage
that agrees with the party of its label (`Dialogue.Stage.Agrees`): at most one frame is under way
between a client and the server, it is the one that was written last, and the server has a session
for just those that it has taken in.

Each move keeps this. What a client does by itself changes its own party only (`Sound.update`), and
what the server does for a party, on its line (`Sound.act`), or about its session (`Sound.tend`),
spares all others. So whatever moves lead to from a network that is started is in good order
(`Sound.start`, `Sound.leads`).
-/

namespace KeyWatch

/-! ## What a stage says about a party -/

namespace Party

variable {roster roster' : Roster} {queued queued' : List (Session Empty)} {p q : Party}

/-- The server has taken the party in: its session waits in the queue or is served, and is then
`Ready`. -/
inductive Attached (roster : Roster) (queued : List (Session Empty)) (p : Party) : Prop where
  | waiting (hservice : p.service = .waiting) (hline : p.line ∈ linesOf queued)
  | serving {session : Session Empty} (hservice : p.service = .serving session)
      (hsession : session.line = p.line) (hready : session.Ready roster)
      (hline : p.line ∉ linesOf queued)

/-- The server has not taken the party in, or its session has ended in good order; no session of its
line is in the queue (`linesOf`). -/
structure Detached (queued : List (Session Empty)) (p : Party) : Prop where
  service : p.service = .waiting ∨ ∃ how, p.service = .ended (.ok how)
  line : p.line ∉ linesOf queued

/-- A party stays `Attached` when its service and its line are as they were, its session stays
ready, and its place in the queue is as it was. -/
theorem Attached.mono (h : p.Attached roster queued) (hservice : q.service = p.service)
    (hline : q.line = p.line)
    (hready : ∀ session, p.service = .serving session → session.Ready roster →
      session.Ready roster')
    (hlines : q.line ∈ linesOf queued' ↔ p.line ∈ linesOf queued) : q.Attached roster' queued' := by
  cases h with
  | waiting hwaits hqueued => exact .waiting (hservice.trans hwaits) (hlines.2 hqueued)
  | serving hserves hsession hbefore hqueued =>
    exact .serving (hservice.trans hserves) (hsession.trans hline.symm) (hready _ hserves hbefore)
      (mt hlines.1 hqueued)

/-- Whether a party is `Attached` depends on its service and its line alone. -/
theorem Attached.congr (h : p.Attached roster queued) (hservice : q.service = p.service)
    (hline : q.line = p.line) : q.Attached roster queued :=
  h.mono hservice hline (fun _ _ hready => hready) (hline ▸ .rfl)

/-- A party that is `Attached` and served is served by a session of its own, which is not in the
queue any more. -/
theorem Attached.of_serving {session : Session Empty} (h : p.Attached roster queued)
    (hservice : p.service = .serving session) :
    session.line = p.line ∧ session.Ready roster ∧ p.line ∉ linesOf queued := by
  cases h with
  | waiting hwaits => cases hwaits.symm.trans hservice
  | serving hserves hsession hready hqueued =>
    cases hserves.symm.trans hservice
    exact ⟨hsession, hready, hqueued⟩

/-- A party that is `Attached` has no session that is over. -/
theorem Attached.service_ne (h : p.Attached roster queued) (result : Except Error SessionEnd) :
    p.service ≠ .ended result := by
  intro hended
  cases h with
  | waiting hwaits => cases hwaits.symm.trans hended
  | serving hserves => cases hserves.symm.trans hended

/-- A party that is `Detached` is not served. -/
theorem Detached.service_ne {session : Session Empty} (h : p.Detached queued) :
    p.service ≠ .serving session := by
  intro hservice
  obtain hwaits | ⟨how, hended⟩ := h.service
  · cases hwaits.symm.trans hservice
  · cases hended.symm.trans hservice

/-- A party stays `Detached` when its service is as it was and its place in the queue too. -/
theorem Detached.mono (h : p.Detached queued) (hservice : q.service = p.service)
    (hlines : q.line ∈ linesOf queued' ↔ p.line ∈ linesOf queued) : q.Detached queued' where
  service := hservice ▸ h.service
  line := mt hlines.1 h.line

end Party

/-- What a party is like at a stage: whether the server has a session for it (`Party.Attached`,
`Party.Detached`), and what is in its pipes. -/
inductive Dialogue.Stage.Agrees (roster : Roster) (queued : List (Session Empty)) (p : Party) :
    Stage → Prop where
  | joined (hservice : p.service = .waiting) (hline : p.line ∉ linesOf queued)
      (hrequests : p.connection.requests = .empty)
      (hresponses : p.connection.responses = .empty) : Agrees roster queued p .joined
  | admitted (hattached : p.Attached roster queued) (hrequests : p.connection.requests = .empty)
      (hresponses : p.connection.responses = Pipe.empty.write (Response.encode ⟨.connect, .ok⟩)) :
      Agrees roster queued p (.admitted true)
  | refused (hdetached : p.Detached queued)
      (hresponses :
        p.connection.responses = Pipe.empty.write (Response.encode ⟨.connect, .failed⟩)) :
      Agrees roster queued p (.admitted false)
  | free (hattached : p.Attached roster queued) (hrequests : p.connection.requests = .empty)
      (hresponses : p.connection.responses = .empty) : Agrees roster queued p .free
  | asked {r : Request} {frame : Bytes} (hattached : p.Attached roster queued)
      (hcall : r ≠ .connect) (hframe : r.encode = .ok frame)
      (hrequests : p.connection.requests = Pipe.empty.write frame)
      (hresponses : p.connection.responses = .empty) : Agrees roster queued p (.asked r)
  | answered {r : Request} {answer : Response} (hmore : r ≠ .disconnect) (hop : answer.op = r.op)
      (hattached : p.Attached roster queued) (hrequests : p.connection.requests = .empty)
      (hresponses : p.connection.responses = Pipe.empty.write answer.encode) :
      Agrees roster queued p (.answered r answer)
  | parted {answer : Response} (hop : answer.op = .disconnect) (hdetached : p.Detached queued)
      (hresponses : p.connection.responses.content = answer.encode) :
      Agrees roster queued p (.answered .disconnect answer)
  | left (hattached : p.Attached roster queued)
      (hrequests : p.connection.requests = Pipe.empty.close) : Agrees roster queued p .left
  | noticed (hdetached : p.Detached queued) : Agrees roster queued p .noticed
  | gone (hdetached : p.Detached queued) : Agrees roster queued p .gone

namespace Dialogue.Stage.Agrees

variable {roster roster' : Roster} {queued queued' : List (Session Empty)} {p q : Party}
  {stage : Stage}

/-- A party that is left alone (`Party.Gets`) stays at its stage. -/
theorem of_gets (h : stage.Agrees roster queued p) (hgets : p.Gets [] q)
    (hready : ∀ session, p.service = .serving session → session.Ready roster →
      session.Ready roster')
    (hlines : q.line ∈ linesOf queued' ↔ p.line ∈ linesOf queued) :
    stage.Agrees roster' queued' q := by
  have hsame : q.connection.responses = p.connection.responses := by
    rw [hgets.responses, Pipe.write, List.append_nil]
  have hattached (hbefore : p.Attached roster queued) : q.Attached roster' queued' :=
    hbefore.mono hgets.service hgets.line hready hlines
  have hdetached (hbefore : p.Detached queued) : q.Detached queued' :=
    hbefore.mono hgets.service hlines
  cases h with
  | joined hservice hline hrequests hresponses =>
    exact .joined (hgets.service.trans hservice) (mt hlines.1 hline)
      (hgets.requests.trans hrequests) (hsame.trans hresponses)
  | admitted hbefore hrequests hresponses =>
    exact .admitted (hattached hbefore) (hgets.requests.trans hrequests) (hsame.trans hresponses)
  | refused hbefore hresponses => exact .refused (hdetached hbefore) (hsame.trans hresponses)
  | free hbefore hrequests hresponses =>
    exact .free (hattached hbefore) (hgets.requests.trans hrequests) (hsame.trans hresponses)
  | asked hbefore hcall hframe hrequests hresponses =>
    exact .asked (hattached hbefore) hcall hframe (hgets.requests.trans hrequests)
      (hsame.trans hresponses)
  | answered hmore hop hbefore hrequests hresponses =>
    exact .answered hmore hop (hattached hbefore) (hgets.requests.trans hrequests)
      (hsame.trans hresponses)
  | parted hop hbefore hresponses =>
    exact .parted hop (hdetached hbefore) ((congrArg Pipe.content hsame).trans hresponses)
  | left hbefore hrequests => exact .left (hattached hbefore) (hgets.requests.trans hrequests)
  | noticed hbefore => exact .noticed (hdetached hbefore)
  | gone hbefore => exact .gone (hdetached hbefore)

/-- A party of which the session is taken from the queue stays at its stage, as it stays
`Party.Attached`. -/
theorem of_attached (h : stage.Agrees roster queued p) (hline : p.line ∈ linesOf queued)
    (hattached : q.Attached roster' queued') (hsame : q.connection = p.connection) :
    stage.Agrees roster' queued' q := by
  cases h with
  | joined _ hnot => exact absurd hline hnot
  | refused hdetached | parted _ hdetached | noticed hdetached | gone hdetached =>
    exact absurd hline hdetached.line
  | admitted _ hrequests hresponses =>
    exact .admitted hattached (hsame ▸ hrequests) (hsame ▸ hresponses)
  | free _ hrequests hresponses => exact .free hattached (hsame ▸ hrequests) (hsame ▸ hresponses)
  | asked _ hcall hframe hrequests hresponses =>
    exact .asked hattached hcall hframe (hsame ▸ hrequests) (hsame ▸ hresponses)
  | answered hmore hop _ hrequests hresponses =>
    exact .answered hmore hop hattached (hsame ▸ hrequests) (hsame ▸ hresponses)
  | left _ hrequests => exact .left hattached (hsame ▸ hrequests)

end Dialogue.Stage.Agrees

/-! ## Meetings in good order -/

namespace Meeting

/-- A meeting in good order: its network is (`Network.Tidy`), and so are all dialogues, each at the
stage that the party of its label is at. -/
structure Sound (held : Backlog (Session Empty)) (m : Meeting) : Prop where
  tidy : m.network.Tidy held
  dialogues : ∀ label, ∃ stage, Dialogue (m.dialogue label) stage ∧
    ∀ p, m.network.party? label = some p → stage.Agrees m.network.server.roster held.items p

variable {m : Meeting} {now : Network} {held held' : Backlog (Session Empty)} {label : String}

/-- An exchange that happens last comes last in the `dialogue` of its label, and in no other. -/
theorem dialogue_append (now : Network) (past : List (String × Exchange)) (label other : String)
    (x : Exchange) : dialogue ⟨now, past ++ [(label, x)]⟩ other =
      dialogue ⟨now, past⟩ other ++ if label = other then [x] else [] := by
  rw [dialogue, List.filter_append, List.map_append]
  by_cases hlabel : label = other
  · simp [dialogue, hlabel]
  · simp [dialogue, hlabel]

/-- The dialogue of a party that is spared (`Network.Spares`) goes on as it did, at the same
stage. -/
theorem Sound.of_spares (h : m.Sound held) {other : String}
    (hspares : m.network.Spares held held' other now) :
    ∃ stage, Dialogue (m.dialogue other) stage ∧
      ∀ q, now.party? other = some q → stage.Agrees now.server.roster held'.items q := by
  obtain ⟨stage, hstage, hagrees⟩ := h.dialogues other
  refine ⟨stage, hstage, fun q hq => ?_⟩
  obtain ⟨p, hp, hgets, hready, hlines⟩ := hspares q hq
  exact (hagrees p hp).of_gets hgets hready hlines

/-- A dialogue goes on by an exchange that follows at its stage (`Stage.Step`), the others are
spared, and the meeting stays sound. -/
theorem Sound.exchange (h : m.Sound held) {stage next : Dialogue.Stage} {x : Exchange}
    (hstage : Dialogue (m.dialogue label) stage) (hstep : stage.Step x next)
    (htidy : now.Tidy held') (hspares : ∀ other, other ≠ label →
      m.network.Spares held held' other now)
    (hagrees : ∀ q, now.party? label = some q → next.Agrees now.server.roster held'.items q) :
    Sound held' ⟨now, m.past ++ [(label, x)]⟩ := by
  refine ⟨htidy, fun other => ?_⟩
  rw [dialogue_append]
  rcases Decidable.em (other = label) with rfl | hother
  · rw [if_pos rfl]
    exact ⟨next, hstage.step hstep, hagrees⟩
  · rw [if_neg (Ne.symm hother), List.append_nil]
    exact h.of_spares (hspares other hother)

/-- What a party does by itself by `Network.update` takes its dialogue on and leaves the meeting
sound: it is nobody else's business. -/
theorem Sound.update (h : m.Sound held) {p : Party} {stage next : Dialogue.Stage} {x : Exchange}
    (hstage : Dialogue (m.dialogue label) stage) (hp : m.network.party? label = some p)
    (hstep : stage.Step x next) (f : Party → Party) (hline : (f p).line = p.line)
    (hagrees : next.Agrees m.network.server.roster held.items (f p)) :
    Sound held ⟨m.network.update label f, m.past ++ [(label, x)]⟩ := by
  refine h.exchange hstage hstep (h.tidy.update fun q hq => ?_)
    (fun other hother => Network.spares_update _ held hother f) fun q hq => ?_
  · cases hp.symm.trans hq
    exact hline
  · rw [Network.party?_update, if_pos rfl, hp] at hq
    cases hq
    exact hagrees

/-! ## What clients do -/

/-- A client that comes under a new label and with a line of its own is at the stage `joined`, and
the meeting stays sound. -/
theorem Sound.join (h : m.Sound held) {id : String} {paths : Client.Paths}
    (hnew : m.dialogue label = [])
    (hline : ∀ other q, m.network.party? other = some q → q.line ≠ paths.response.shown) :
    Sound held ⟨{ m.network with
      parties := (label, ⟨.start id paths, .waiting⟩) :: m.network.parties },
      m.past ++ [(label, .came)]⟩ := by
  have hstage : Dialogue (m.dialogue label) .vacant := hnew ▸ .nil
  have habsent : m.network.party? label = none := by
    obtain ⟨stage, hdialogue, hagrees⟩ := h.dialogues label
    rw [hnew] at hdialogue
    cases hp : m.network.party? label with
    | none => rfl
    | some p =>
      obtain rfl := Dialogue.eq_vacant hdialogue
      cases hagrees p hp
  have hnewLine : paths.response.shown ∉ m.network.addresses.map Prod.snd := by
    intro hmem
    obtain ⟨_, haddress, heq⟩ := List.mem_map.1 hmem
    obtain ⟨⟨other, q⟩, hq, rfl⟩ := List.mem_map.1 haddress
    exact hline other q (h.tidy.party?_of_mem hq) heq
  refine h.exchange hstage .came ?_ (fun other hother q hq => ?_) fun q hq => ?_
  · exact {
      sent := h.tidy.sent
      queue := h.tidy.queue
      «open» := h.tidy.open
      labels := List.nodup_cons.2 ⟨Network.notMem_of_party?_eq_none habsent, h.tidy.labels⟩
      lines := List.nodup_cons.2 ⟨hnewLine, h.tidy.lines⟩
      queued := h.tidy.queued
      ready := h.tidy.ready
      addressed := fun session hmem => List.mem_cons_of_mem _ (h.tidy.addressed session hmem) }
  · rw [Network.party?, List.lookup_cons, beq_eq_false_iff_ne.2 hother] at hq
    exact ⟨q, hq, .refl q, fun _ _ hready => hready, .rfl⟩
  · rw [Network.party?, List.lookup_cons_self] at hq
    cases hq
    refine .joined rfl (fun hmem => ?_) rfl rfl
    obtain ⟨session, hsession, heq⟩ := List.mem_map.1 hmem
    have haddressed := h.tidy.addressed session hsession
    rw [heq] at haddressed
    exact hnewLine haddressed

/-- A client that reads the first response by `Network.greet?` reads the answer to its registration,
and the meeting stays sound. -/
theorem Sound.greet (h : m.Sound held) {refusal : Option Error}
    (hposture : Posture.of (m.dialogue label) = .joining)
    (hgreet : m.network.greet? label = some (refusal, now)) :
    Sound held ⟨now, m.past ++ [(label, .greeted refusal)]⟩ := by
  simp only [Network.greet?, Option.bind_eq_bind, Option.bind_eq_some_iff] at hgreet
  obtain ⟨p, hp, ⟨_, connection⟩, hread, heq⟩ := hgreet
  cases heq
  obtain ⟨stage, hstage, hagrees⟩ := h.dialogues label
  rw [hstage.posture] at hposture
  cases hagrees p hp with
  | joined _ _ _ hresponses => cases hread.symm.trans (Client.Connection.greet?_of_empty hresponses)
  | admitted hattached hrequests hresponses =>
    cases hread.symm.trans (Client.Connection.greet?_of_encode hresponses)
    exact h.update hstage hp .greeted _ rfl (.free (hattached.congr rfl rfl) hrequests rfl)
  | refused hdetached hresponses =>
    cases hread.symm.trans (Client.Connection.greet?_of_encode hresponses)
    exact h.update hstage hp (.refused _) _ rfl (.gone ⟨hdetached.service, hdetached.line⟩)
  | free | asked | answered | parted | left | noticed | gone => cases hposture

/-- A client that writes a request by `Network.ask` has nothing else under way, and the meeting
stays sound. -/
theorem Sound.ask (h : m.Sound held) {r : Request}
    (hposture : Posture.of (m.dialogue label) = .free) (hcall : r ≠ .connect)
    (hask : m.network.ask label r = some (none, now)) :
    Sound held ⟨now, m.past ++ [(label, .asked r)]⟩ := by
  obtain ⟨p, hp, hasked⟩ := Option.map_eq_some_iff.1 hask
  obtain ⟨stage, hstage, hagrees⟩ := h.dialogues label
  rw [hstage.posture] at hposture
  cases hframe : r.encode with
  | error fault =>
    simp only [Client.Connection.ask, hframe] at hasked
    cases hasked
  | ok frame =>
    simp only [Client.Connection.ask_of_encode hframe] at hasked
    cases hasked
    cases hagrees p hp with
    | free hattached hrequests hresponses =>
      exact h.update hstage hp (.asked hcall hframe) _ rfl
        (.asked (hattached.congr rfl rfl) hcall hframe (congrArg (·.write frame) hrequests)
          hresponses)
    | joined | admitted | refused | asked | answered | parted | left | noticed | gone =>
      cases hposture

/-- A request that `Network.ask` does not write leaves the network as it was. Its key is too
long. -/
theorem exists_of_ask {n : Network} {r : Request} {e : Error}
    (hask : n.ask label r = some (some e, now)) :
    now = n ∧ ∃ key, (r = .subscribe key ∨ r = .unsubscribe key) ∧
      maxTextSize < key.utf8ByteSize ∧
      e = .protocol (.tooLong "key" key.utf8ByteSize maxTextSize) := by
  obtain ⟨p, -, hasked⟩ := Option.map_eq_some_iff.1 hask
  cases hframe : r.encode with
  | ok frame =>
    simp only [Client.Connection.ask_of_encode hframe] at hasked
    cases hasked
  | error fault =>
    obtain ⟨key, hr, hlong⟩ := Request.exists_of_encode_eq_error hframe
    simp only [Client.Connection.ask_of_lt hr hlong] at hasked
    cases hasked
    exact ⟨rfl, key, hr, hlong, rfl⟩

/-- A client that cannot write a request by `Network.ask` is where it was, and the meeting stays
sound. -/
theorem Sound.withhold (h : m.Sound held) {r : Request} {e : Error}
    (hposture : Posture.of (m.dialogue label) = .free)
    (hask : m.network.ask label r = some (some e, now)) :
    Sound held ⟨now, m.past ++ [(label, .withheld r e)]⟩ := by
  obtain ⟨rfl, key, hr, hlong, rfl⟩ := exists_of_ask hask
  obtain ⟨stage, hstage, hagrees⟩ := h.dialogues label
  rw [hstage.posture] at hposture
  cases stage with
  | free =>
    exact h.exchange hstage (.withheld hr hlong) h.tidy
      (fun _ _ q hq => ⟨q, hq, .refl q, fun _ _ hready => hready, .rfl⟩) hagrees
  | vacant | joined | admitted | asked | answered | left | noticed | gone => cases hposture

/-- A client that reads the response to a request by `Network.hear?` reads the server's answer to
that request, and the meeting stays sound. -/
theorem Sound.hear (h : m.Sound held) {r : Request} {result : Except Error ResultCode}
    (hposture : Posture.of (m.dialogue label) = .calling r)
    (hhear : m.network.hear? label r.op = some (result, now)) :
    Sound held ⟨now, m.past ++ [(label, .heard result)]⟩ := by
  simp only [Network.hear?, Option.bind_eq_bind, Option.bind_eq_some_iff] at hhear
  obtain ⟨p, hp, ⟨_, connection⟩, hread, heq⟩ := hhear
  cases heq
  obtain ⟨stage, hstage, hagrees⟩ := h.dialogues label
  rw [hstage.posture] at hposture
  cases hagrees p hp with
  | asked _ _ _ _ hresponses =>
    cases hread.symm.trans (Client.Connection.hear?_of_empty hresponses _)
  | answered hmore hop hattached hrequests hresponses =>
    cases hposture
    have hcontent : p.connection.responses.content = _ := congrArg Pipe.content hresponses
    rw [← hop] at hread
    cases hread.symm.trans (Client.Connection.hear?_of_encode hcontent)
    refine h.update hstage hp (.heard hmore) _ rfl (.free (hattached.congr rfl rfl) hrequests ?_)
    simp only [hresponses]
    rfl
  | parted hop hdetached hresponses =>
    cases hposture
    rw [show Request.op .disconnect = OpCode.disconnect from rfl, ← hop] at hread
    cases hread.symm.trans (Client.Connection.hear?_of_encode hresponses)
    exact h.update hstage hp .parted _ rfl (.gone ⟨hdetached.service, hdetached.line⟩)
  | joined | admitted | refused | free | left | noticed | gone => cases hposture

/-- A client that hangs up has nothing under way, its pipe of requests is empty and closed
(`Pipe.close`), and the meeting stays sound. -/
theorem Sound.hangUp (h : m.Sound held) (hposture : Posture.of (m.dialogue label) = .free) :
    Sound held ⟨m.network.update label fun p =>
      { p with connection := { p.connection with requests := p.connection.requests.close } },
      m.past ++ [(label, .hungUp)]⟩ := by
  obtain ⟨stage, hstage, hagrees⟩ := h.dialogues label
  rw [hstage.posture] at hposture
  refine h.exchange hstage (?_ : stage.Step .hungUp .left) (h.tidy.update fun _ _ => rfl)
    (fun other hother => Network.spares_update _ held hother _) fun q hq => ?_
  · cases stage with
    | free => exact .hungUp
    | vacant | joined | admitted | asked | answered | left | noticed | gone => cases hposture
  · rw [Network.party?_update, if_pos rfl] at hq
    obtain ⟨p, hp, rfl⟩ := Option.map_eq_some_iff.1 hq
    cases hagrees p hp with
    | free hattached hrequests hresponses =>
      exact .left (hattached.congr rfl rfl) (congrArg Pipe.close hrequests)
    | joined | admitted | refused | asked | answered | parted | left | noticed | gone =>
      cases hposture

/-! ## What the server does -/

/-- A change of the table by `Network.apply` sends notifications at most, and the meeting stays
sound. -/
theorem Sound.apply (h : m.Sound held) {α : Type} (f : Table → Effect Table α) :
    Sound held ⟨(m.network.apply f).2, m.past⟩ := by
  have hspares (label : String) : m.network.Spares held held label (m.network.apply f).2 :=
    h.tidy.spares_act fun p _ =>
      ⟨fun _ => .of_written rfl (Engine.writtenOn_deliver _ _ p.line), .rfl⟩
  have htidy : (m.network.apply f).2.Tidy held := by
    refine h.tidy.act ?_ h.tidy.open h.tidy.queued fun session hmem => ?_
    · exact h.tidy.queue
    · exact ⟨h.tidy.ready session hmem, h.tidy.addressed session hmem⟩
  exact ⟨htidy, fun label => h.of_spares (hspares label)⟩

/-- What the server does for a party on its line by `Network.act` takes the party's dialogue on and
spares the others, and the meeting stays sound. -/
theorem Sound.act (h : m.Sound held) {p : Party} {stage next : Dialogue.Stage} {x : Exchange}
    {α : Type} {f : Server Empty Job.State → α × Server Empty Job.State}
    (hp : m.network.party? label = some p) (hstage : Dialogue (m.dialogue label) stage)
    (hstep : stage.Step x next)
    (hspares : m.network.server.SparesOthers p.line (f m.network.server).2)
    (htidy : (m.network.act f).2.Tidy held')
    (hlines : ∀ line, p.line ≠ line → (line ∈ linesOf held'.items ↔ line ∈ linesOf held.items))
    (hagrees : ∀ q, p.Gets ((f m.network.server).2.engine.writtenOn p.line) q →
      next.Agrees (f m.network.server).2.roster held'.items q) :
    Sound held' ⟨(m.network.act f).2, m.past ++ [(label, x)]⟩ := by
  refine h.exchange hstage hstep htidy (fun other hother => ?_) fun q hq => ?_
  · refine h.tidy.spares_act fun q hq => ?_
    have hne := h.tidy.line_ne hp hq hother.symm
    exact ⟨fun client => hspares client q.line hne, hlines q.line hne⟩
  · obtain ⟨p', hp', hgets⟩ := Network.exists_of_party?_act hq
    cases hp.symm.trans hp'
    exact hagrees q hgets

/-- A registration that the server answers by `Network.enrol?` is the first of its party, whose
session is queued if it is taken in; the meeting stays sound. -/
theorem Sound.enrol (h : m.Sound held) {result : Except Error Bool}
    (hcame : m.dialogue label = [.came]) (hnow : m.network.enrol? label = some (result, now)) :
    ∃ held', Sound held' ⟨now, m.past ++ [(label, .admitted result)]⟩ := by
  obtain ⟨p, s, hp, henrol, rfl⟩ := Network.exists_of_enrol? hnow
  obtain ⟨stage, hstage, hagrees⟩ := h.dialogues label
  rw [hcame] at hstage
  obtain rfl := hstage.eq_joined
  rw [← hcame] at hstage
  cases hagrees p hp with
  | joined hservice hline hrequests hresponses =>
    have hspares : m.network.server.SparesOthers p.line s := fun client other hne => by
      have henrolled : (m.network.server.openChannel {}).2.Spares client other _ :=
        Server.Spares.enrol hne _ p.connection.id (.opened .fifo) {}
          (m.network.server.openChannel {}).1
      rw [henrol] at henrolled
      exact (Server.Spares.run m.network.server (.openChannel {})).trans henrolled
    have hready := h.tidy.ready_of_sparesOthers hspares hline
    have hnothing : (m.network.server.openChannel {}).2.engine.writtenOn p.line = [] :=
      h.tidy.writtenOn p.line
    have hwilling : Sink.Willing {} := ⟨nofun, rfl, rfl, rfl⟩
    have hqueue : (m.network.server.openChannel {}).2.queue.Holds held := h.tidy.queue
    obtain ⟨w, s', -, hwaits⟩ | ⟨s', hrefused, hsame, hwritten⟩ |
      ⟨s', session, htaken, hsession, hout, hknown, hqueue, hwritten⟩ :=
        Server.enrol_of_willing hqueue h.tidy.open hwilling p.connection.id (.opened .fifo) p.line
          (m.network.server.openChannel {}).1
    · cases hwaits.symm.trans henrol
    · cases hrefused.symm.trans henrol
      rw [hnothing, List.nil_append] at hwritten
      refine ⟨held,
        h.act hp hstage (.admitted false) hspares ?_ (fun _ _ => .rfl) fun q hgets => ?_⟩
      · exact h.tidy.act (hsame.symm ▸ hqueue) h.tidy.open h.tidy.queued hready
      · rw [hwritten] at hgets
        refine .refused ⟨.inl (hgets.service.trans hservice), hgets.line ▸ hline⟩ ?_
        rw [hgets.responses, hresponses]
    · cases htaken.symm.trans henrol
      rw [hnothing, List.nil_append] at hwritten
      refine ⟨{ held with items := held.items ++ [session] },
        h.act hp hstage (.admitted true) hspares ?_ (fun line hne => ?_) fun q hgets => ?_⟩
      · exact h.tidy.act_push hp hsession hline hqueue hready ⟨hout, hknown⟩
      · rw [linesOf_append, hsession, List.mem_append, List.mem_singleton,
          or_iff_left (Ne.symm hne)]
      · rw [hwritten] at hgets
        refine .admitted (.waiting (hgets.service.trans hservice) ?_)
          (hgets.requests.trans hrequests) ?_
        · rw [linesOf_append, hsession, hgets.line]
          exact List.mem_append_right _ (List.mem_singleton.2 rfl)
        · rw [hgets.responses, hresponses]

/-- What it is to take a session from the queue by `Network.begin?`: it is the first of those held,
and it is served to the party of its line. -/
theorem exists_of_begin? {n : Network} (h : n.Tidy held) (hbegin : n.begin? = some now) :
    ∃ session rest label p s, held.items = session :: rest ∧
      n.party? label = some p ∧ p.line = session.line ∧
      s.engine = n.server.engine ∧ s.queue.Holds { held with items := rest } ∧
      (∀ client line, n.server.Spares client line s) ∧
      now = Network.update { n with server := s } label
        fun p => { p with service := .serving session } := by
  have hpop : ∃ session rest queue, held.items = session :: rest ∧
      queue.Holds { held with items := rest } ∧
      n.server.queue.pop? = some (some session, queue) := by
    cases hitems : held.items with
    | nil =>
      have hstarved := h.queue.isNone_pop?
      rw [Queue.isStarved, h.queue.closed, h.open, h.queue.size, hitems] at hstarved
      rw [Network.begin?, Option.isNone_iff_eq_none.1 hstarved] at hbegin
      cases hbegin
    | cons session rest =>
      obtain ⟨queue, hpop, hqueue⟩ := h.queue.pop hitems
      exact ⟨session, rest, queue, rfl, hqueue, hpop⟩
  obtain ⟨session, rest, queue, hitems, hqueue, hpop⟩ := hpop
  have hmem : session ∈ held.items := hitems ▸ List.mem_cons_self
  simp only [Network.begin?, hpop] at hbegin
  split at hbegin
  case h_1 label p hfound =>
    have hline := List.find?_some hfound
    have hp := h.party?_of_mem (List.mem_of_find?_eq_some hfound)
    refine ⟨session, rest, label, p, Server.setState { n.server with queue } session.client .active,
      hitems, hp, beq_iff_eq.1 hline, rfl, hqueue, fun client line => ?_,
      (Option.some.inj hbegin).symm⟩
    exact ((Server.Spares.refl client line n.server).queue queue).trans (.setState _ _ _)
  case h_2 hnone =>
    obtain ⟨label, p, hp, hline⟩ := h.exists_party? hmem
    have hnot := List.find?_eq_none.1 hnone (label, p) (Network.mem_of_party? hp)
    exact absurd (beq_iff_eq.2 hline) hnot

/-- A session that the server takes from the queue by `Network.begin?` was that of a party that
waits, which is now served; the meeting stays sound. -/
theorem Sound.begin (h : m.Sound held) (hbegin : m.network.begin? = some now) :
    ∃ held', Sound held' ⟨now, m.past⟩ := by
  obtain ⟨session, rest, label, p, s, hitems, hp, hline, hengine, hqueue, hspares, rfl⟩ :=
    exists_of_begin? h.tidy hbegin
  have hready : ∀ session ∈ held.items, session.Ready s.roster :=
    fun other hmem => (h.tidy.ready other hmem).of_spares (hspares other.client other.line)
  have hqueued := h.tidy.queued
  rw [hitems, linesOf, List.map_cons, List.nodup_cons] at hqueued
  have hmem : session ∈ held.items := hitems ▸ List.mem_cons_self
  refine ⟨{ held with items := rest }, ?_, fun other => ?_⟩
  · refine Network.Tidy.update ?_ fun q hq => rfl
    refine h.tidy.of_addresses rfl (hengine ▸ h.tidy.sent) hqueue h.tidy.open hqueued.2 ?_
    intro other hrest
    have hother : other ∈ held.items := hitems ▸ List.mem_cons_of_mem session hrest
    exact ⟨hready other hother, h.tidy.addressed other hother⟩
  · rcases Decidable.em (other = label) with rfl | hother
    · obtain ⟨stage, hstage, hagrees⟩ := h.dialogues other
      refine ⟨stage, hstage, fun q hq => ?_⟩
      rw [Network.party?_update, if_pos rfl] at hq
      obtain ⟨p', hp', rfl⟩ := Option.map_eq_some_iff.1 hq
      cases hp.symm.trans hp'
      refine (hagrees p hp).of_attached ?_ (.serving rfl hline.symm (hready session hmem) ?_) rfl
      · exact hline ▸ List.mem_map_of_mem hmem
      · exact hline ▸ hqueued.1
    · refine h.of_spares fun q hq => ?_
      rw [Network.party?_update, if_neg hother] at hq
      have hne : q.line ≠ session.line := hline ▸ h.tidy.line_ne hq hp hother
      refine ⟨q, hq, .refl q, fun session _ hbefore => hbefore.of_spares (hspares _ q.line), ?_⟩
      rw [hitems, linesOf, linesOf, List.map_cons, List.mem_cons, or_iff_right hne]

/-- What is done about a party's session by `Server.tend` takes the party's dialogue on and spares
the others, and the meeting stays sound. -/
theorem Sound.tend (h : m.Sound held) {p : Party} {stage next : Dialogue.Stage} {x : Exchange}
    {session : Session Empty} {request : Except Error (Option Request)} {requests : Pipe}
    (hp : m.network.party? label = some p) (hservice : p.service = .serving session)
    (hsession : session.line = p.line) (hline : p.line ∉ linesOf held.items)
    (hread : p.connection.requests.receive? Request.read = some (request, requests))
    (hserve : m.network.serve? label = some now)
    (hstage : Dialogue (m.dialogue label) stage) (hstep : stage.Step x next)
    (hagrees : ∀ q,
      (p.withRequests requests).Gets
        ((m.network.server.tend session request).2.engine.writtenOn p.line) q →
      next.Agrees (m.network.server.tend session request).2.roster held.items
        (q.proceed session (m.network.server.tend session request).1)) :
    Sound held ⟨now, m.past ++ [(label, x)]⟩ := by
  have hnow := Option.some.inj (hserve.symm.trans (Network.serve?_eq hp hservice hread))
  subst hnow
  have hspares : m.network.server.SparesOthers p.line
      (m.network.server.tend session request).2 :=
    hsession ▸ Server.sparesOthers_tend session request m.network.server
  have htaken : (m.network.update label (Party.withRequests requests)).Tidy held :=
    h.tidy.update fun _ _ => rfl
  have hacted : ((m.network.update label (Party.withRequests requests)).act
      (Server.tend session request)).2.Tidy held := by
    have hqueue := Server.queue_tend session request m.network.server
    exact htaken.act (hqueue.symm ▸ h.tidy.queue) h.tidy.open h.tidy.queued
      (htaken.ready_of_sparesOthers hspares hline)
  refine h.exchange hstage hstep (hacted.update fun q _ => Party.line_proceed session _ q)
    (fun other hother => ?_) fun q hq => ?_
  · have hfirst := Network.spares_update m.network held hother (Party.withRequests requests)
    have hsecond : (m.network.update label (Party.withRequests requests)).Spares held held other
        ((m.network.update label (Party.withRequests requests)).act
          (Server.tend session request)).2 := by
      refine htaken.spares_act fun q hq => ⟨fun client => ?_, .rfl⟩
      rw [Network.party?_update, if_neg hother] at hq
      exact hspares client q.line (h.tidy.line_ne hp hq hother.symm)
    exact (hfirst.trans hsecond).trans (Network.spares_update _ held hother _)
  · rw [Network.party?_update, if_pos rfl] at hq
    obtain ⟨served, hserved, rfl⟩ := Option.map_eq_some_iff.1 hq
    obtain ⟨p', hp', hgets⟩ := Network.exists_of_party?_act hserved
    rw [Network.party?_update, if_pos rfl, hp] at hp'
    cases hp'
    exact hagrees served hgets

/-- What the server reads of a party's requests by `Network.serve?` is the request that was written
last or the end of them, and what it answers is due to that; the meeting stays sound. -/
theorem Sound.serve (h : m.Sound held) {x : Exchange} (hserve : m.network.serve? label = some now)
    (hx : m.network.turn? label = some x) : Sound held ⟨now, m.past ++ [(label, x)]⟩ := by
  obtain ⟨p, session, request, requests, hp, hservice, hread⟩ := Network.exists_of_serve? hserve
  obtain ⟨stage, hstage, hagrees⟩ := h.dialogues label
  have hturn := Option.some.inj ((Network.turn?_of_party hp hservice hread).symm.trans hx)
  rw [← Server.tend_ending] at hturn
  cases hagrees p hp with
  | joined hwaits => cases hwaits.symm.trans hservice
  | refused hdetached | parted _ hdetached | noticed hdetached | gone hdetached =>
    exact absurd hservice hdetached.service_ne
  | admitted _ hrequests | free _ hrequests | answered _ _ _ hrequests =>
    rw [hrequests, Request.receive?_empty] at hread
    cases hread
  | @asked r frame hattached hcall hframe hrequests hresponses =>
    obtain ⟨hsession, hready, hline⟩ := hattached.of_serving hservice
    have hcontent : p.connection.requests.content = frame ++ [] := by
      rw [hrequests, List.append_nil]
      rfl
    cases hread.symm.trans (Request.receive?_of_encode hframe hcontent)
    obtain ⟨answer, out, hperform, hop, hdone, hwritten, hgoes⟩ :=
      Server.tend_request hready.known hready.willing (mt Request.beforeNul_eq_connect_iff.1 hcall)
    rw [hsession, h.tidy.writtenOn p.line, List.nil_append] at hwritten
    rw [Request.op_beforeNul] at hop
    simp only [Request.beforeNul_eq_disconnect_iff] at hdone
    simp only [Network.answer?, hperform, hdone] at hturn
    subst hturn
    refine h.tend hp hservice hsession hline hread hserve hstage (.served hop) fun q hgets => ?_
    rw [hwritten] at hgets
    rw [hdone]
    have hresponses : q.connection.responses = Pipe.empty.write answer.encode :=
      hgets.responses.trans (congrArg (·.write answer.encode) hresponses)
    have hline : q.line ∉ linesOf held.items := hgets.line ▸ hline
    rcases Decidable.em (r = .disconnect) with rfl | hmore
    · exact .parted hop ⟨.inr ⟨.disconnected, rfl⟩, hline⟩ (congrArg Pipe.content hresponses)
    · rw [if_neg hmore]
      obtain ⟨hwilling, hknown⟩ := hgoes (mt Request.beforeNul_eq_disconnect_iff.1 hmore)
      have hempty : q.connection.requests = .empty := by
        rw [hgets.requests]
        show Pipe.mk [] p.connection.requests.closed = .empty
        rw [hrequests]
        rfl
      exact .answered hmore hop
        (.serving rfl (hsession.trans hgets.line.symm) ⟨hwilling, hknown⟩ hline) hempty hresponses
  | left hattached hrequests =>
    obtain ⟨hsession, -, hline⟩ := hattached.of_serving hservice
    cases hread.symm.trans (hrequests ▸ Request.receive?_closed)
    rw [Server.tend_end] at hturn
    subst hturn
    refine h.tend hp hservice hsession hline hread hserve hstage .noticed fun q hgets => ?_
    exact .noticed ⟨.inr ⟨.hangup, rfl⟩, hgets.line ▸ hline⟩

/-! ## Parties that go -/

/-- A party goes by `Network.drop` whose session has ended, or whose client has nothing more to do,
and the meeting stays sound. -/
theorem Sound.leave (h : m.Sound held) (hover : Posture.of (m.dialogue label) = .gone ∨
    ∃ p result, m.network.party? label = some p ∧ p.service = .ended result) :
    Sound held ⟨m.network.drop label, m.past⟩ := by
  obtain ⟨stage, hstage, hagrees⟩ := h.dialogues label
  rw [hstage.posture] at hover
  refine ⟨h.tidy.drop fun p hp => ?_, fun other => h.of_spares (h.tidy.spares_drop label other)⟩
  have hended : stage.posture = .gone ∨ ∃ result, p.service = .ended result := by
    obtain hgone | ⟨p', result, hp', hended⟩ := hover
    · exact .inl hgone
    · cases hp.symm.trans hp'
      exact .inr ⟨result, hended⟩
  cases hagrees p hp with
  | joined _ hline => exact hline
  | refused hdetached | parted _ hdetached | noticed hdetached | gone hdetached =>
    exact hdetached.line
  | admitted hattached | free hattached | asked hattached | answered _ _ hattached
  | left hattached =>
    obtain hgone | ⟨result, hended⟩ := hended
    · cases hgone
    · exact absurd hended (hattached.service_ne result)

/-! ## Every meeting -/

/-- Every `Move` keeps a meeting sound: one case for each constructor. -/
theorem Sound.move {m' : Meeting} (h : m.Sound held) (hmove : m.Move m') :
    ∃ held', Sound held' m' := by
  cases hmove with
  | join hnew hline => exact ⟨held, h.join hnew hline⟩
  | enrol hcame hnow => exact h.enrol hcame hnow
  | begin hbegin => exact h.begin hbegin
  | serve hserve hx => exact ⟨held, h.serve hserve hx⟩
  | greet hposture hgreet => exact ⟨held, h.greet hposture hgreet⟩
  | ask hposture hcall hask => exact ⟨held, h.ask hposture hcall hask⟩
  | withhold hposture _ hask => exact ⟨held, h.withhold hposture hask⟩
  | hear hposture hhear => exact ⟨held, h.hear hposture hhear⟩
  | hangUp hposture => exact ⟨held, h.hangUp hposture⟩
  | apply f => exact ⟨held, h.apply f⟩
  | leave hover => exact ⟨held, h.leave hover⟩

/-- What holds at first holds wherever moves lead (`Leads`): a sound meeting leads to sound ones
only. -/
theorem Sound.leads {m' : Meeting} (h : m.Sound held) (hleads : m.Leads m') :
    ∃ held', Sound held' m' := by
  induction hleads with
  | refl => exact ⟨held, h⟩
  | tail _ hmove ih =>
    obtain ⟨held', hbefore⟩ := ih
    exact hbefore.move hmove

/-- A network that `Network.start` starts is a sound meeting, if nothing was sent before. -/
theorem Sound.start {workers : Nat} {engine : Engine} {job : Job.State} {directory : Path}
    {n : Network} (hsent : engine.sent = [])
    (hstart : Network.start workers engine job directory = .ok n) :
    Sound (.empty (max workers 1)) ⟨n, []⟩ := by
  unfold Network.start at hstart
  obtain ⟨files, -, heq⟩ := exists_of_bind_eq_ok hstart
  cases heq
  refine ⟨?_, fun label => ⟨.vacant, .nil, fun p hp => absurd hp (Option.some_ne_none p).symm⟩⟩
  exact {
    sent := hsent
    queue := .empty workers
    «open» := rfl
    labels := List.nodup_nil
    lines := List.nodup_nil
    queued := List.nodup_nil
    ready := nofun
    addressed := nofun }

end Meeting

end KeyWatch
