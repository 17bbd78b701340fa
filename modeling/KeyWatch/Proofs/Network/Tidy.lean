import KeyWatch.Proofs.Network.Parties
import KeyWatch.Proofs.Session.OneLine
import Mathlib.Data.List.Nodup

/-!
# Networks in good order

A network is in good order (`Network.Tidy`) if nothing of what the server sent is still to be put
into the pipes, no two parties have one label or one response line, and the queue is open and holds
at most one session for each line, of which a party is there and the server knows the client.

What happens to one party is of no concern to the others (`Network.Spares`): the server's ends of
their pipes are as they were, whether their sessions wait or are served, and so are their own. That
holds of all that parties do (`Network.spares_update`), of what the server does for one response
line (`Network.Tidy.spares_act`), and of sessions that are taken from the queue.
-/

namespace KeyWatch

/-- A session whose response line takes everything (`Sink.Willing`), and of which the server knows
the client. -/
structure Session.Ready (roster : Roster) (session : Session Empty) : Prop where
  willing : session.responses.Willing
  known : (roster.record? session.client).isSome = true

/-- A session stays `Ready` whatever is done that spares its client (`Server.Spares`). -/
theorem Session.Ready.of_spares {χ : Type} {s now : Server Empty χ} {session : Session Empty}
    {line : String} (h : session.Ready s.roster) (hspares : s.Spares session.client line now) :
    session.Ready now.roster := by
  obtain ⟨c, hc⟩ := Option.isSome_iff_exists.1 h.known
  obtain ⟨c', hc', -⟩ := hspares.record c hc
  exact ⟨h.willing, Option.isSome_of_eq_some hc'⟩

/-- The response lines of sessions (`Session.line`), in order. -/
abbrev linesOf (sessions : List (Session Empty)) : List String := sessions.map Session.line

/-- A session that comes last has its line last (`linesOf`). -/
theorem linesOf_append (sessions : List (Session Empty)) (session : Session Empty) :
    linesOf (sessions ++ [session]) = linesOf sessions ++ [session.line] :=
  List.map_append

/-- A party with other requests under way in its `connection`. -/
def Party.withRequests (requests : Pipe) (p : Party) : Party :=
  { p with connection := { p.connection with requests } }

/-- A party after the server has done something about its session: the session is over and the party
closed (`Party.close`), or it goes on. -/
def Party.proceed (session : Session Empty) (done : Option (Except Error SessionEnd) × Sink)
    (p : Party) : Party :=
  match done.1 with
  | some result => p.close result
  | none => { p with service := .serving { session with responses := done.2 } }

/-- A party keeps its response line when it proceeds (`Party.proceed`). -/
theorem Party.line_proceed (session : Session Empty)
    (done : Option (Except Error SessionEnd) × Sink) (p : Party) :
    (p.proceed session done).line = p.line := by
  unfold proceed
  split
  · rfl
  · rfl

namespace Network

/-- The parties' labels and response lines (`Party.line`), in order. -/
def addresses (n : Network) : List (String × String) :=
  n.parties.map fun party => (party.1, party.2.line)

/-- A network in good order, of which the queue holds a backlog: nothing that was sent is still on
its way, labels and lines are distinct (`addresses`), and every session in the queue is ready and
that of a party. -/
structure Tidy (held : Backlog (Session Empty)) (n : Network) : Prop where
  sent : n.server.engine.sent = []
  queue : n.server.queue.Holds held
  «open» : held.closed = false
  labels : (n.addresses.map Prod.fst).Nodup
  lines : (n.addresses.map Prod.snd).Nodup
  queued : (linesOf held.items).Nodup
  ready : ∀ session ∈ held.items, session.Ready n.server.roster
  addressed : ∀ session ∈ held.items, session.line ∈ n.addresses.map Prod.snd

variable {n now later : Network} {held held' held'' : Backlog (Session Empty)} {label : String}
  {p : Party}

/-! ## Parties by label and by line -/

/-- A party that is found by `party?` is among the parties of the network. -/
theorem mem_of_party? (h : n.party? label = some p) : (label, p) ∈ n.parties := by
  obtain ⟨before, behind, heq, -⟩ := List.lookup_eq_some_iff.1 h
  rw [heq]
  exact List.mem_append_right _ List.mem_cons_self

/-- A party that is found by `party?` has its label and its line among the `addresses`. -/
theorem mem_addresses_of_party? (h : n.party? label = some p) : (label, p.line) ∈ n.addresses :=
  List.mem_map_of_mem (mem_of_party? h)

/-- A label by which no party is found is none of the `addresses`. -/
theorem notMem_of_party?_eq_none (h : n.party? label = none) :
    label ∉ n.addresses.map Prod.fst := by
  intro hmem
  obtain ⟨_, haddress, rfl⟩ := List.mem_map.1 hmem
  obtain ⟨party, hparty, rfl⟩ := List.mem_map.1 haddress
  have hne := List.lookup_eq_none_iff.1 h party hparty
  exact absurd rfl (bne_iff_ne.1 hne)

namespace Tidy

/-- In a tidy network nothing is left of what was written on any line (`Engine.writtenOn`). -/
theorem writtenOn (h : n.Tidy held) (line : String) : n.server.engine.writtenOn line = [] := by
  rw [Engine.writtenOn, h.sent]
  rfl

/-- In a tidy network every party is found by its label (`Network.party?`). -/
theorem party?_of_mem (h : n.Tidy held) (hmem : (label, p) ∈ n.parties) :
    n.party? label = some p := by
  cases hparty : n.party? label with
  | none =>
    have haddress : (label, p.line) ∈ n.addresses := List.mem_map_of_mem hmem
    exact absurd (List.mem_map_of_mem haddress) (notMem_of_party?_eq_none hparty)
  | some q =>
    have hlabels := h.labels
    rw [addresses, List.map_map] at hlabels
    have hsame := List.inj_on_of_nodup_map hlabels (mem_of_party? hparty) hmem rfl
    rw [(Prod.mk.inj hsame).2]

/-- In a tidy network no two parties have one response line (`Tidy.lines`). -/
theorem label_eq_of_line {other : String} {q : Party} (h : n.Tidy held)
    (hp : n.party? label = some p) (hq : n.party? other = some q) (hline : p.line = q.line) :
    label = other := by
  have hlines := h.lines
  rw [addresses, List.map_map] at hlines
  have hsame := List.inj_on_of_nodup_map hlines (mem_of_party? hp) (mem_of_party? hq) hline
  exact (Prod.mk.inj hsame).1

/-- In a tidy network parties with two labels have two response lines (`label_eq_of_line`). -/
theorem line_ne {other : String} {q : Party} (h : n.Tidy held) (hp : n.party? label = some p)
    (hq : n.party? other = some q) (hne : label ≠ other) : p.line ≠ q.line :=
  fun hline => hne (h.label_eq_of_line hp hq hline)

/-- In a tidy network a session that waits has a party (`Tidy.addressed`). -/
theorem exists_party? (h : n.Tidy held) {session : Session Empty} (hmem : session ∈ held.items) :
    ∃ label p, n.party? label = some p ∧ p.line = session.line := by
  obtain ⟨_, haddress, hline⟩ := List.mem_map.1 (h.addressed session hmem)
  obtain ⟨⟨label, p⟩, hp, rfl⟩ := List.mem_map.1 haddress
  exact ⟨label, p, h.party?_of_mem hp, hline⟩

/-- What the server does on the line of no session in the queue leaves these sessions ready
(`Session.Ready`), and their parties are there. -/
theorem ready_of_sparesOthers {s : Server Empty Job.State} {line : String} (h : n.Tidy held)
    (hspares : n.server.SparesOthers line s) (hline : line ∉ linesOf held.items) :
    ∀ session ∈ held.items,
      session.Ready s.roster ∧ session.line ∈ n.addresses.map Prod.snd := by
  intro session hmem
  have hother : line ≠ session.line := fun heq => hline (heq ▸ List.mem_map_of_mem hmem)
  exact ⟨(h.ready session hmem).of_spares (hspares session.client session.line hother),
    h.addressed session hmem⟩

/-- What leaves labels and lines as they are (`addresses`) leaves a network tidy, if what is in the
queue then is. -/
theorem of_addresses (h : n.Tidy held) (haddresses : now.addresses = n.addresses)
    (hsent : now.server.engine.sent = []) (hqueue : now.server.queue.Holds held')
    (hopen : held'.closed = false) (hqueued : (linesOf held'.items).Nodup)
    (hready : ∀ session ∈ held'.items,
      session.Ready now.server.roster ∧ session.line ∈ n.addresses.map Prod.snd) :
    now.Tidy held' where
  sent := hsent
  queue := hqueue
  «open» := hopen
  labels := haddresses ▸ h.labels
  lines := haddresses ▸ h.lines
  queued := hqueued
  ready session hmem := (hready session hmem).1
  addressed session hmem := haddresses ▸ (hready session hmem).2

end Tidy

/-! ## What changes no address -/

/-- A party that does something by `update` and keeps its line leaves the `addresses` as they
are. -/
theorem addresses_update {f : Party → Party} (hf : ∀ p, n.party? label = some p →
    (f p).line = p.line) : (n.update label f).addresses = n.addresses := by
  replace hf : ∀ p, n.parties.lookup label = some p → (f p).line = p.line := hf
  show (Party.modify label f n.parties).map _ = n.parties.map _
  generalize n.parties = parties at hf ⊢
  induction parties with
  | nil => rfl
  | cons first rest ih =>
    obtain ⟨name, p⟩ := first
    rw [Party.modify]
    split
    case isTrue hname =>
      subst hname
      rw [List.map_cons, List.map_cons, hf p List.lookup_cons_self]
    case isFalse hname =>
      have hrest : ∀ q, rest.lookup label = some q → (f q).line = q.line := by
        intro q hq
        refine hf q ?_
        rw [List.lookup_cons, beq_eq_false_iff_ne.2 (Ne.symm hname)]
        exact hq
      rw [List.map_cons, List.map_cons, ih hrest]

/-- What the server does by `act` leaves the `addresses` as they are. -/
theorem addresses_act {α : Type} (n : Network)
    (f : Server Empty Job.State → α × Server Empty Job.State) :
    (n.act f).2.addresses = n.addresses := by
  show (n.parties.map _).map _ = n.parties.map _
  rw [List.map_map]
  refine List.map_congr_left fun first _ => ?_
  obtain ⟨name, p⟩ := first
  exact congrArg (name, ·) (Party.gets_foldl_take _ _ p).line

/-- A party that does something by `Network.update` and keeps its line leaves the network tidy. -/
theorem Tidy.update (h : n.Tidy held) {f : Party → Party}
    (hf : ∀ p, n.party? label = some p → (f p).line = p.line) : (n.update label f).Tidy held :=
  h.of_addresses (addresses_update hf) h.sent h.queue h.open h.queued
    fun session hmem => ⟨h.ready session hmem, h.addressed session hmem⟩

/-- What the server does by `Network.act` leaves the network tidy, if what is in the queue then is
in good order. -/
theorem Tidy.act {α : Type} {f : Server Empty Job.State → α × Server Empty Job.State}
    (h : n.Tidy held) (hqueue : (f n.server).2.queue.Holds held') (hopen : held'.closed = false)
    (hqueued : (linesOf held'.items).Nodup)
    (hready : ∀ session ∈ held'.items,
      session.Ready (f n.server).2.roster ∧ session.line ∈ n.addresses.map Prod.snd) :
    (n.act f).2.Tidy held' :=
  h.of_addresses (addresses_act n f) rfl hqueue hopen hqueued hready

/-- What the server does by `Network.act` leaves the network tidy, if a session of a party that had
none in the queue comes last there. -/
theorem Tidy.act_push {α : Type} {f : Server Empty Job.State → α × Server Empty Job.State}
    (h : n.Tidy held) {session : Session Empty} (hp : n.party? label = some p)
    (hsession : session.line = p.line) (hline : p.line ∉ linesOf held.items)
    (hqueue : (f n.server).2.queue.Holds { held with items := held.items ++ [session] })
    (hbefore : ∀ other ∈ held.items,
      other.Ready (f n.server).2.roster ∧ other.line ∈ n.addresses.map Prod.snd)
    (hready : session.Ready (f n.server).2.roster) :
    (n.act f).2.Tidy { held with items := held.items ++ [session] } := by
  refine h.act hqueue h.open ?_ fun other hmem => ?_
  · rw [linesOf_append, hsession, List.nodup_append_comm, List.singleton_append, List.nodup_cons]
    exact ⟨hline, h.queued⟩
  · rcases List.mem_append.1 hmem with hmem | hmem
    · exact hbefore other hmem
    · obtain rfl := List.mem_singleton.1 hmem
      exact ⟨hready, hsession ▸ List.mem_map_of_mem (mem_addresses_of_party? hp)⟩

/-! ## Parties that are spared -/

/-- What was done to a network is of no concern to the party of a label: nothing was put into its
pipes but notifications (`Party.Gets`), and the server knows its client, if it serves it, as before,
and has a session for it in the queue if it had one before. -/
def Spares (held held' : Backlog (Session Empty)) (label : String) (n now : Network) : Prop :=
  ∀ q, now.party? label = some q → ∃ p, n.party? label = some p ∧ p.Gets [] q ∧
    (∀ session, p.service = .serving session → session.Ready n.server.roster →
      session.Ready now.server.roster) ∧
    (q.line ∈ linesOf held'.items ↔ p.line ∈ linesOf held.items)

/-- What spares a party one after another spares it (`Spares`). -/
theorem Spares.trans (h : n.Spares held held' label now)
    (h' : now.Spares held' held'' label later) : n.Spares held held'' label later := by
  intro r hr
  obtain ⟨q, hq, hgets', hready', hlines'⟩ := h' r hr
  obtain ⟨p, hp, hgets, hready, hlines⟩ := h q hq
  refine ⟨p, hp, hgets.trans hgets', fun session hsession hbefore => ?_, hlines'.trans hlines⟩
  exact hready' session (hgets.service.trans hsession) (hready session hsession hbefore)

/-- What one party does by `update` spares every other. -/
theorem spares_update (n : Network) (held : Backlog (Session Empty)) {label other : String}
    (hother : label ≠ other) (f : Party → Party) : n.Spares held held label (n.update other f) := by
  intro q hq
  rw [party?_update, if_neg hother] at hq
  exact ⟨q, hq, .refl q, fun _ _ hready => hready, .rfl⟩

/-- What the server does by `Network.act` spares a party on whose line it writes nothing, unless
sessions for it come into the queue or go. -/
theorem Tidy.spares_act {α : Type} {f : Server Empty Job.State → α × Server Empty Job.State}
    (h : n.Tidy held)
    (hspares : ∀ p, n.party? label = some p →
      (∀ client, n.server.Spares client p.line (f n.server).2) ∧
        (p.line ∈ linesOf held'.items ↔ p.line ∈ linesOf held.items)) :
    n.Spares held held' label (n.act f).2 := by
  intro q hq
  obtain ⟨p, hp, hgets⟩ := exists_of_party?_act hq
  obtain ⟨hspares, hlines⟩ := hspares p hp
  have hnothing : (f n.server).2.engine.writtenOn p.line = [] :=
    (hspares 0).written.trans (h.writtenOn p.line)
  rw [hnothing] at hgets
  refine ⟨p, hp, hgets, fun session _ hready => ?_, hgets.line ▸ hlines⟩
  show session.Ready (f n.server).2.roster
  exact hready.of_spares (hspares session.client)

/-! ## Parties that go -/

/-- A party for which no session waits may go by `Network.drop`, and the network stays tidy. -/
theorem Tidy.drop (h : n.Tidy held)
    (hline : ∀ p, n.party? label = some p → p.line ∉ linesOf held.items) :
    (n.drop label).Tidy held := by
  have haddresses : (n.drop label).addresses.Sublist n.addresses := List.eraseP_sublist.map _
  refine ⟨h.sent, h.queue, h.open, h.labels.sublist (haddresses.map _),
    h.lines.sublist (haddresses.map _), h.queued, h.ready, fun session hmem => ?_⟩
  obtain ⟨other, p, hp, hsession⟩ := h.exists_party? hmem
  have hstays : (other, p) ∈ (n.drop label).parties := by
    refine (List.mem_eraseP_of_neg ?_).2 (mem_of_party? hp)
    intro hother
    obtain rfl : other = label := beq_iff_eq.1 hother
    exact hline p hp (hsession ▸ List.mem_map_of_mem hmem)
  have haddress : (other, p.line) ∈ (n.drop label).addresses := List.mem_map_of_mem hstays
  exact hsession ▸ List.mem_map_of_mem haddress

/-- A party that goes by `Network.drop` spares every other. -/
theorem Tidy.spares_drop (h : n.Tidy held) (label other : String) :
    n.Spares held held other (n.drop label) := by
  intro q hq
  have hmem : (other, q) ∈ n.parties :=
    List.mem_of_mem_eraseP (mem_of_party? (n := n.drop label) hq)
  exact ⟨q, h.party?_of_mem hmem, .refl q, fun _ _ hready => hready, .rfl⟩

/-! ## Serving -/

/-- To serve a party by `serve?` is to read of its requests, to act on what was read
(`Server.tend`), and to go on with the session or to close it (`Party.proceed`). -/
theorem serve?_eq {session : Session Empty} {request : Except Error (Option Request)}
    {requests : Pipe} (hp : n.party? label = some p) (hservice : p.service = .serving session)
    (hread : p.connection.requests.receive? Request.read = some (request, requests)) :
    n.serve? label = some
      (((n.update label (Party.withRequests requests)).act (Server.tend session request)).2.update
        label (Party.proceed session (n.server.tend session request).1)) := by
  simp only [serve?, hp, hservice, hread, Option.bind_eq_bind, Option.bind_some]
  rfl

/-- Only a party is served by `serve?` of which the server has a session and some request can be
read. -/
theorem exists_of_serve? (h : n.serve? label = some now) : ∃ p session request requests,
    n.party? label = some p ∧ p.service = .serving session ∧
      p.connection.requests.receive? Request.read = some (request, requests) := by
  simp only [serve?, Option.bind_eq_bind, Option.bind_eq_some_iff] at h
  obtain ⟨p, hp, h⟩ := h
  split at h
  case h_1 session hservice =>
    obtain ⟨⟨request, requests⟩, hread, -⟩ := Option.bind_eq_some_iff.1 h
    exact ⟨p, session, request, requests, hp, hservice, hread⟩
  case h_2 => cases h

end Network

end KeyWatch
