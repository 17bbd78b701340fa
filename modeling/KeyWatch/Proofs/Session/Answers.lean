import KeyWatch.Proofs.Notice.Delivery
import KeyWatch.Proofs.Session.Talk
import KeyWatch.Proofs.Session.Written

/-!
# What a session answers

A session of which the response line takes everything answers its client's talk (`handle_answers`):
it writes one response for each request but those to connect, in order, up to the first request to
disconnect, and nothing else. What a response says is a matter of the server as it is when the
request is served (`Server.due`), whatever happened elsewhere between the requests. And how the
session ends is a matter of the talk alone: with a request to disconnect, or else where the talk
stops.

What a session meets, with the server that it finds then, are its turns (`Server.turns`). The talk
says which requests are among them (`Talk.requests`) and how it stops (`Talk.last`).
-/

namespace KeyWatch

variable {ε χ : Type}

/-! ## What there is to answer -/

namespace Talk

/-- The requests of a `Talk` that are served: those up to the first to disconnect. -/
def requests : Talk ε → List Request
  | stop _ => []
  | event _ rest => rest.requests
  | request r rest => if r = .disconnect then [r] else r :: rest.requests

/-- How a talk stops (`Stop`), whatever was said before. -/
def last : Talk ε → Stop
  | stop how => how
  | event _ rest | request _ rest => rest.last

end Talk

namespace Request

/-- A key that is there whole and cannot be decoded by `decodeKey` is no text. -/
theorem of_decodeKey_error {payload : Bytes} {fault : ProtocolFault}
    (hlong : ¬payload.length < textWidth) (h : decodeKey payload = .error fault) :
    ∃ f, fault = .notText "key" f := by
  unfold decodeKey decodeField at h
  rw [if_neg hlong] at h
  cases htext : Utf8.decode (fieldText (payload.take textWidth)) with
  | ok text =>
    rw [htext] at h
    cases h
  | error f =>
    rw [htext] at h
    cases h
    exact ⟨f, rfl⟩

/-- Bytes that are no request by `whole?` begin with no code of one, or have a key that is no
text. -/
theorem of_whole?_error {bytes : Bytes} {fault : ProtocolFault}
    (h : whole? bytes = some (.error fault)) :
    (∃ b, fault = .unknownOp b) ∨ ∃ f, fault = .notText "key" f := by
  cases bytes with
  | nil => cases h
  | cons b payload =>
    simp only [whole?, payloadWidth, decode] at h
    cases hop : OpCode.ofByte? b with
    | none =>
      simp only [hop, Nat.not_lt_zero, if_false] at h
      cases h
      exact .inl ⟨b, rfl⟩
    | some op =>
      simp only [hop] at h
      cases op with
      | connect | disconnect => cases h
      | subscribe | unsubscribe =>
        have hlong : ¬payload.length < textWidth := by
          intro hshort
          rw [if_pos hshort] at h
          cases h
        rw [if_neg hlong] at h
        cases hkey : decodeKey payload with
        | ok key =>
          rw [hkey] at h
          cases h
        | error fault' =>
          rw [hkey] at h
          cases h
          exact .inr (of_decodeKey_error hlong hkey)

end Request

/-- A talk that stops with bytes that are no request (`Stop.malformed`) stops with an unknown code
or a key that is no text. -/
theorem Talk.of_last_malformed {pending : Bytes} {atoms : List (Atom ε)} {fault : ProtocolFault}
    (h : (ofAtoms pending atoms).last = .malformed fault) :
    (∃ b, fault = .unknownOp b) ∨ ∃ f, fault = .notText "key" f := by
  fun_induction ofAtoms pending atoms with
  | case1 | case2 => cases h
  | case3 pending failure rest _ ih => exact ih h
  | case4 => cases h
  | case5 pending e rest ih => exact ih h
  | case6 pending b rest _ ih => exact ih h
  | case7 pending b rest r _ ih => exact ih h
  | case8 pending b rest fault' hwhole =>
    cases h
    exact Request.of_whole?_error hwhole

namespace Table

/-- To `subscribe` is answered with success exactly if the key has an entry. -/
theorem code_of_subscribe {t after : Table} {key client : String} {channel : ChannelId}
    {outcome : SubscribeOutcome} (h : t.subscribe key client channel = .ok (outcome, after)) :
    outcome.code = if (route key).isSome && t.contains key then .ok else .failed := by
  unfold subscribe at h
  unfold contains
  split at h
  case h_1 => cases h
  case h_2 i hroute =>
    cases h
    rw [hroute]
    simp only [Option.isSome_some, Bool.true_and, Option.any_some]
    cases hentry : (t.bucket i).contains key with
    | false => rfl
    | true =>
      cases hsubscribed : (t.bucket i).isSubscribed key client with
      | false => rfl
      | true => rfl

/-- To `subscribe` is refused with an error only if the key has no bucket. -/
theorem route_of_subscribe_error {t : Table} {key client : String} {channel : ChannelId}
    {fault : Error} (h : t.subscribe key client channel = .error fault) : route key = none := by
  unfold subscribe at h
  split at h
  case h_1 hroute => exact hroute
  case h_2 => cases h

/-- To `unsubscribe` is answered with success exactly if the client is subscribed. -/
theorem code_unsubscribe (t : Table) (key client : String) :
    (t.unsubscribe key client).1.code =
      if (t.subscribersOf key).contains client then .ok else .failed := by
  unfold unsubscribe subscribersOf
  cases route key with
  | none => rfl
  | some i =>
    have hsame : (t.bucket i).isSubscribed key client =
        ((t.bucket i).subscribersOf key).clients.contains client :=
      Bool.eq_iff_iff.2 (Bucket.isSubscribed_iff.trans List.contains_iff_mem.symm)
    simp only [hsame]
    split <;> rfl

end Table

namespace Server

/-- Whether a server grants what the client of an id asks for, by its table and its lists at the
moment (`Table.contains`, `Table.subscribersOf`). -/
def grants (s : Server ε χ) (id : String) : Request → Bool
  | .connect => false
  | .disconnect => true
  | .subscribe key => (route key).isSome && s.engine.table.contains key
  | .unsubscribe key => (s.engine.table.subscribersOf key).contains id

/-- The answer that is due to a request of the client of an id: success or not as the server
`grants` it, and none to a request to connect. -/
def due (s : Server ε χ) (id : String) : Request → Option Response
  | .connect => none
  | r => some ⟨r.op, if s.grants id r then .ok else .failed⟩

/-- The bytes of the answer that is `due`, as a frame. -/
def dueBytes (s : Server ε χ) (id : String) (r : Request) : Bytes :=
  (s.due id r).elim [] Response.encode

/-- A request is answered by `perform` as is `due`. -/
theorem perform_fst {s : Server ε χ} {client : ClientHandle} {c : ClientRecord}
    (hc : s.roster.record? client = some c) (r : Request) :
    (s.perform client r).1 = s.due c.id r := by
  cases r with
  | connect | disconnect => rfl
  | subscribe key =>
    simp only [perform, hc]
    cases hs : s.engine.subscribe key c.id c.channel with
    | ok done =>
      obtain ⟨outcome, after⟩ := done
      obtain ⟨table, ht, -⟩ := Engine.subscribe_eq_ok hs
      simp only [Table.code_of_subscribe ht]
      rfl
    | error fault =>
      have hroute := Table.route_of_subscribe_error (Engine.subscribe_eq_error hs)
      simp only [due, grants, hroute]
      rfl
  | unsubscribe key =>
    simp only [perform, hc]
    exact congrArg (fun code => some (Response.mk .unsubscribe code))
      (Table.code_unsubscribe s.engine.table key c.id)

/-! ## The turns of a session -/

/-- What a session meets next, with the server as it is then (`Server.turns`). -/
inductive Turn (ε χ : Type) where
  | event (e : ε) (now : Server ε χ)
  | request (r : Request) (now : Server ε χ)

/-- The request of a turn, and none of an event. -/
def Turn.request? : Turn ε χ → Option Request
  | event _ _ => none
  | request r _ => some r

/-- The bytes of the answer that is due in a turn to the client of an id (`Server.dueBytes`). -/
def Turn.dueBytes (id : String) : Turn ε χ → Bytes
  | event _ _ => []
  | request r now => now.dueBytes id r

/-- The turns of a session that serves a talk, as `Server.serveTalk` meets them. -/
def turns (act : ε → Server ε χ → Server ε χ) (client : ClientHandle) (line : String) :
    Talk ε → Sink → Server ε χ → List (Turn ε χ)
  | .stop _, _, _ => []
  | .event e rest, out, s => .event e s :: turns act client line rest out (act e s)
  | .request r rest, out, s =>
    .request r s ::
      match s.answer client line out r with
      | (some _, _, _) => []
      | (none, out, s) => turns act client line rest out s

/-- What is written on a willing sink by `emitResponse` leaves on the response line. -/
theorem writtenOn_emitResponse (s : Server ε χ) (line : String) {out : Sink} (hout : out.Willing)
    (bytes : Bytes) : (s.emitResponse line out (some bytes)).engine.writtenOn line =
      s.engine.writtenOn line ++ bytes := by
  have hline : out.line (.response line) = .response line := by
    rw [Sink.line, hout.line]
  have hbytes : Emission.bytesOn (.response line) [⟨out.line (.response line), bytes⟩] = bytes := by
    rw [hline]
    simp [Emission.bytesOn]
  refine (Engine.writtenOn_emitAll _ _ line).trans ?_
  exact congrArg (s.engine.writtenOn line ++ ·) hbytes

/-- A request that is answered by `answer` on a willing sink is answered as is due and with nothing
else, and the session goes on unless the client disconnects. -/
theorem answer_of_willing {s : Server ε χ} {client : ClientHandle} {c : ClientRecord} {out : Sink}
    (hc : s.roster.record? client = some c) (hout : out.Willing) (line : String) (r : Request) :
    ∃ out' after, s.answer client line out r =
        (if r = .disconnect then some (.ok .disconnected) else none, out', after) ∧
      out'.Willing ∧
      after.engine.writtenOn line = s.engine.writtenOn line ++ s.dueBytes c.id r ∧
      ∃ c', after.roster.record? client = some c' ∧ c'.id = c.id := by
  have hspares := @Spares.perform ε χ client line s client r
  have hanswer := perform_fst hc r
  unfold answer dueBytes
  rw [← hanswer]
  cases hperform : s.perform client r with
  | mk response now =>
    rw [hperform] at hspares hanswer
    obtain ⟨c', hc', hid⟩ := hspares.record c hc
    cases response with
    | none =>
      have hconnect : r ≠ .disconnect := by
        rintro rfl
        cases hanswer
      rw [if_neg hconnect]
      refine ⟨out, now, rfl, hout, ?_, c', hc', hid⟩
      exact hspares.written.trans (List.append_nil _).symm
    | some response =>
      obtain ⟨herror, hemitted, hafter⟩ := hout.send "response" response.encode
      have hwritten := writtenOn_emitResponse now line hout response.encode
      simp only [reply, Response.write, herror, hemitted]
      refine ⟨_, _, rfl, hafter, ?_, c', hc', hid⟩
      rw [hwritten, hspares.written]
      rfl

/-- What serving a talk by `serveTalk` on a willing sink comes to: how it ends, what is written on
the line, and which requests are among its turns. -/
structure Answered (act : ε → Server ε χ → Server ε χ) (client : ClientHandle) (line id : String)
    (t : Talk ε) (out : Sink) (s : Server ε χ) : Prop where
  result : (serveTalk act client line t out s).1 =
    if .disconnect ∈ t.requests then .ok .disconnected else t.last.result
  willing : (serveTalk act client line t out s).2.1.Willing
  written : (serveTalk act client line t out s).2.2.engine.writtenOn line =
    s.engine.writtenOn line ++ (turns act client line t out s).flatMap (Turn.dueBytes id)
  requests : (turns act client line t out s).filterMap Turn.request? = t.requests

/-- Every session of which the response line takes everything is `Answered`, if what happens
elsewhere spares it; by induction on the talk. -/
theorem answered {act : ε → Server ε χ → Server ε χ} {client : ClientHandle} {line : String}
    {c : ClientRecord} (t : Talk ε) {out : Sink} {s : Server ε χ}
    (hc : s.roster.record? client = some c) (hout : out.Willing)
    (hspares : ∀ e now, .event e now ∈ turns act client line t out s →
      now.Spares client line (act e now)) :
    Answered act client line c.id t out s := by
  induction t generalizing out s c with
  | stop how => exact ⟨rfl, hout, (List.append_nil _).symm, rfl⟩
  | event e rest ih =>
    have hevent := hspares e s List.mem_cons_self
    obtain ⟨c', hc', hid⟩ := hevent.record c hc
    have hrest := ih hc' hout fun e' now hnow => hspares e' now (List.mem_cons_of_mem _ hnow)
    exact ⟨hrest.result, hrest.willing, hid ▸ hevent.written ▸ hrest.written, hrest.requests⟩
  | request r rest ih =>
    obtain ⟨out', after, hanswer, hout', hwritten, c', hc', hid⟩ :=
      answer_of_willing hc hout line r
    rcases Decidable.em (r = .disconnect) with rfl | hne
    · -- the session ends with the answer
      have hserve : serveTalk act client line (.request .disconnect rest) out s =
          (.ok .disconnected, out', after) := by
        rw [serveTalk, hanswer]
        rfl
      have hturns : turns act client line (.request .disconnect rest) out s =
          [.request .disconnect s] := by
        rw [turns, hanswer]
        rfl
      refine ⟨?_, ?_, ?_, ?_⟩
      · rw [hserve, Talk.requests, if_pos rfl, if_pos List.mem_cons_self]
      · rw [hserve]
        exact hout'
      · rw [hserve, hturns]
        exact hwritten.trans (congrArg (_ ++ ·) (List.append_nil _).symm)
      · rw [hturns, Talk.requests, if_pos rfl]
        rfl
    · rw [if_neg hne] at hanswer
      have hserve : serveTalk act client line (.request r rest) out s =
          serveTalk act client line rest out' after := by
        rw [serveTalk, hanswer]
      have hturns : turns act client line (.request r rest) out s =
          .request r s :: turns act client line rest out' after := by
        rw [turns, hanswer]
      rw [hturns] at hspares
      have hrest := ih hc' hout' fun e now hnow => hspares e now (List.mem_cons_of_mem _ hnow)
      rw [hid] at hrest
      refine ⟨?_, ?_, ?_, ?_⟩
      · rw [hserve, hrest.result, Talk.requests, if_neg hne, Talk.last]
        simp [Ne.symm hne]
      · rw [hserve]
        exact hrest.willing
      · rw [hserve, hrest.written, hwritten, hturns, List.append_assoc]
        rfl
      · rw [hturns, Talk.requests, if_neg hne, ← hrest.requests]
        rfl

end Server

/-! ## How a session is answered and ends -/

/-- The failures of a read that mean that the other side has gone (`IoKind.isDisconnect`). -/
def IoKind.gone : List IoKind :=
  [.unexpectedEof, .brokenPipe, .connectionReset, .connectionAborted]

/-- The failures that are `gone` are those by which the code tells that a client has
disconnected. -/
theorem IoKind.mem_gone_iff {kind : IoKind} : kind ∈ gone ↔ kind.isDisconnect = true := by
  cases kind <;> decide

namespace Stop

/-- No way in which a talk stops is a request to disconnect (`Stop.result`). -/
theorem result_ne_disconnected (stop : Stop) : stop.result ≠ .ok .disconnected := by
  intro h
  cases stop with
  | ended | malformed => cases h
  | failed fault reading =>
    simp only [result] at h
    split at h <;> cases h

/-- A session hangs up where the client's talk ends or its client has `gone`. -/
theorem result_eq_hangup_iff {stop : Stop} : stop.result = .ok .hangup ↔
    stop = .ended ∨ ∃ fault reading, stop = .failed fault reading ∧ fault.kind ∈ IoKind.gone := by
  constructor
  · intro h
    cases stop with
    | ended => exact .inl rfl
    | malformed fault => cases h
    | failed fault reading =>
      simp only [result] at h
      split at h
      case isTrue hgone => exact .inr ⟨fault, reading, rfl, IoKind.mem_gone_iff.2 hgone⟩
      case isFalse => cases h
  · rintro (rfl | ⟨fault, reading, rfl, hgone⟩)
    · rfl
    · exact if_pos (IoKind.mem_gone_iff.1 hgone)

/-- A session fails where what is said is no request or a read fails otherwise (`Stop.result`). -/
theorem exists_result_eq_error_iff {stop : Stop} : (∃ e, stop.result = .error e) ↔
    (∃ fault, stop = .malformed fault) ∨
      ∃ fault reading, stop = .failed fault reading ∧ fault.kind ∉ IoKind.gone := by
  constructor
  · rintro ⟨e, h⟩
    cases stop with
    | ended => cases h
    | malformed fault => exact .inl ⟨fault, rfl⟩
    | failed fault reading =>
      simp only [result] at h
      split at h
      case isTrue => cases h
      case isFalse hgone =>
        exact .inr ⟨fault, reading, rfl, fun hmem => hgone (IoKind.mem_gone_iff.1 hmem)⟩
  · rintro (⟨fault, rfl⟩ | ⟨fault, reading, rfl, hgone⟩)
    · exact ⟨_, rfl⟩
    · exact ⟨_, if_neg fun hkind => hgone (IoKind.mem_gone_iff.2 hkind)⟩

end Stop

namespace Session

/-- What the client of a session says, read from its `requests` as they are when it begins. -/
def talk (session : Session ε) (files : FileSystem) : Talk ε :=
  .ofSource (session.requests.toSource files)

/-- A talk that stops with bytes that are no request (`Stop.malformed`) stops with an unknown code
or with a key that is no text. -/
theorem exists_malformed_iff (session : Session ε) (files : FileSystem) :
    (∃ fault, (session.talk files).last = .malformed fault) ↔
      (∃ b, (session.talk files).last = .malformed (.unknownOp b)) ∨
        ∃ fault, (session.talk files).last = .malformed (.notText "key" fault) := by
  constructor
  · rintro ⟨fault, h⟩
    rcases Talk.of_last_malformed h with ⟨b, rfl⟩ | ⟨f, rfl⟩
    · exact .inl ⟨b, h⟩
    · exact .inr ⟨f, h⟩
  · rintro (⟨b, h⟩ | ⟨f, h⟩)
    · exact ⟨_, h⟩
    · exact ⟨_, h⟩

/-- The turns of a session that a server handles (`Server.turns`), from the moment at which its
client is active. -/
def turns (act : ε → Server ε χ → Server ε χ) (session : Session ε) (s : Server ε χ) :
    List (Server.Turn ε χ) :=
  Server.turns act session.client session.line (session.talk s.engine.files) session.responses
    (s.setState session.client .active)

end Session

namespace Server

/-- The end of a session by `Server.finish` writes nothing on its line, if nothing is held back
there. -/
theorem writtenOn_finish (s : Server ε χ) (client : ClientHandle) (line : String) {out : Sink}
    (hout : out.Willing) :
    (s.finish client line out).engine.writtenOn line = s.engine.writtenOn line := by
  have hreleased := (@Spares.release ε χ client line s client).written
  have hnothing : out.remainder = none := by
    rw [Sink.remainder, hout.pending]
    rfl
  unfold finish hangUp
  rw [hnothing]
  exact hreleased

/-- A session is handled by `Server.handle` as its client's talk goes (`serveTalk`), and then
ends. -/
theorem handle_eq (act : ε → Server ε χ → Server ε χ) (session : Session ε) (s : Server ε χ) :
    handle act session s =
      let done := serveTalk act session.client session.line (session.talk s.engine.files)
        session.responses (s.setState session.client .active)
      (done.1, done.2.2.finish session.client session.line done.2.1) := by
  unfold handle
  simp only [serveAll_readAll]
  rfl

/-- A session of which the response line takes everything, and of which the line and the client are
spared by what happens elsewhere (`Server.Spares`), writes what is `due` to each of the client's
requests, in order and up to the first to disconnect, as the server is when the request is served,
and nothing else. It ends well with a request to disconnect, or else where the client has gone, and
with an error where what is said is no request or a read fails otherwise. -/
theorem handle_answers {act : ε → Server ε χ → Server ε χ} {session : Session ε} {s : Server ε χ}
    {c : ClientRecord} (hclient : s.roster.record? session.client = some c)
    (hwilling : session.responses.Willing)
    (hspares : ∀ e now, .event e now ∈ session.turns act s →
      now.Spares session.client session.line (act e now)) :
    let talk := session.talk s.engine.files
    let turns := session.turns act s
    let result := (handle act session s).1
    let after := (handle act session s).2
    after.engine.writtenOn session.line = s.engine.writtenOn session.line ++
        turns.flatMap (Turn.dueBytes c.id) ∧
      turns.filterMap Turn.request? = talk.requests ∧
      (result = .ok .disconnected ↔ .disconnect ∈ talk.requests) ∧
      (result = .ok .hangup ↔ .disconnect ∉ talk.requests ∧
        (talk.last = .ended ∨
          ∃ fault reading, talk.last = .failed fault reading ∧ fault.kind ∈ IoKind.gone)) ∧
      ((∃ e, result = .error e) ↔ .disconnect ∉ talk.requests ∧
        ((∃ b, talk.last = .malformed (.unknownOp b)) ∨
          (∃ fault, talk.last = .malformed (.notText "key" fault)) ∨
          ∃ fault reading, talk.last = .failed fault reading ∧ fault.kind ∉ IoKind.gone)) := by
  have hstarted : (s.setState session.client .active).roster.record? session.client =
      some { c with state := .active } := Roster.record?_setState_self hclient .active
  have hanswered := answered (session.talk s.engine.files) hstarted hwilling hspares
  have hresult : (handle act session s).1 =
      if .disconnect ∈ (session.talk s.engine.files).requests then .ok .disconnected
      else (session.talk s.engine.files).last.result := by
    rw [handle_eq]
    exact hanswered.result
  refine ⟨?_, hanswered.requests, ?_, ?_, ?_⟩
  · rw [handle_eq]
    exact (writtenOn_finish _ session.client session.line hanswered.willing).trans hanswered.written
  · rw [hresult]
    split
    case isTrue hsaid => exact iff_of_true rfl hsaid
    case isFalse hsaid => exact iff_of_false (Stop.result_ne_disconnected _) hsaid
  · rw [hresult]
    split
    case isTrue hsaid => exact iff_of_false nofun fun h => h.1 hsaid
    case isFalse hsaid => exact Stop.result_eq_hangup_iff.trans (and_iff_right hsaid).symm
  · rw [hresult]
    split
    case isTrue hsaid => exact iff_of_false nofun fun h => h.1 hsaid
    case isFalse hsaid =>
      refine Stop.exists_result_eq_error_iff.trans (Iff.trans ?_ (and_iff_right hsaid).symm)
      rw [← or_assoc, ← session.exists_malformed_iff]

/-- What a client asks that watches a key; before it stops watching something happens
`elsewhere`. -/
def watching : Session Unit where
  client := 0
  requests := .source [.bytes (0x33 :: 0x6b :: List.replicate 40 0), .event (),
    .bytes (0x34 :: 0x6b :: List.replicate 20 0), .bytes (List.replicate 20 0 ++ [0x31, 0x32])]
  responses := { script := [.accept 1] }
  line := "a"

/-- What another client asks that watches the key and goes, within `elsewhere`. -/
def passing : Session Unit :=
  ⟨1, .source [.bytes (0x33 :: 0x6b :: List.replicate 40 0), .bytes [0x32]], {}, "b"⟩

/-- A server that holds the key, with the two clients of `watching` and `passing`. -/
def holding : Server Unit Unit :=
  { Server.ofEngine 2 (Operation.runAll [.openChannel {}, .openChannel {}, .write "k" "v"]
      (Engine.ofFiles 1 .bare)) () with
    roster := ⟨[⟨"a", 0, .registered⟩, ⟨"b", 1, .registered⟩], [0, 1]⟩ }

/-- What happens elsewhere: the key is deleted, and then the session of the other client is handled
by `handle`. -/
def elsewhere (_ : Unit) (s : Server Unit Unit) : Server Unit Unit :=
  (handle (fun _ s => s) passing { s with engine := (Operation.delete "k").run s.engine }).2

/-- The client of `watching` is told that it watches the key, and later that it does not: the key
was deleted between. The request to connect is not answered. -/
theorem handle_answers_deletedBetween :
    (handle elsewhere watching holding).2.engine.writtenOn "a" =
        [0x33, 0x30, 0x34, 0x31, 0x32, 0x30] ∧
      (handle elsewhere watching holding).1 = .ok .disconnected := by
  have hspares : ∀ e now, Turn.event e now ∈ watching.turns elsewhere holding →
      now.Spares 0 "a" (elsewhere e now) := by
    intro e now _
    refine (Spares.run now (.delete "k")).trans (Spares.handle (fun _ s => .refl 0 "a" s) ?_ _)
    decide
  have hwilling : watching.responses.Willing :=
    ⟨by simp [watching, Allowance.Willing], rfl, rfl, rfl⟩
  obtain ⟨hwritten, -, hdisconnected, -, -⟩ :=
    @handle_answers Unit Unit elsewhere watching holding ⟨"a", 0, .registered⟩ rfl hwilling hspares
  refine ⟨hwritten.trans ?_, hdisconnected.2 ?_⟩
  · decide +kernel
  · decide +kernel

end Server

end KeyWatch
