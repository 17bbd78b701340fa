import KeyWatch.Network.Basic
import KeyWatch.Proofs.Session.Written
import KeyWatch.Proofs.Wire.Encoded

/-!
# The pipes of a network

What is written to a pipe is read from it frame by frame: a reader takes the first frame, if it is
there whole (`Pipe.receive?_frame`), and waits at an empty pipe that is open. A request is read as
it was written, but for what stands behind a NUL (`Request.receive?_of_encode`). So a client that
reads a response of the operation called gets its result (`Client.Connection.hear?_of_encode`), and
its request is either written whole or, with a key that is too long, not at all.

What the server sends reaches its parties by the names of their response lines: a party finds just
the bytes written on its own line in its pipe, and its notifications change, but nothing else
(`Network.party?_act`).
-/

namespace KeyWatch

/-! ## Reading from a pipe -/

/-- A frame is filled by `fill` from a first piece with bytes enough for it, and what is more stays
in the source. -/
theorem fill_of_enough {ε : Type} {size : Nat} {content : Bytes} (rest : Source ε)
    (h : size ≤ content.length) :
    ∃ left, fill size [] (.bytes content :: rest) = ⟨.full (content.take size), [], left⟩ ∧
      Source.content left = content.drop size ++ Source.content rest ∧
      (size < content.length → left = .bytes (content.drop size) :: rest) := by
  have hnot : ¬content.length < size - ([] : Bytes).length := Nat.not_lt.2 h
  rw [fill]
  simp only [if_neg hnot]
  split
  case isTrue heq =>
    rw [List.length_nil, Nat.sub_zero] at heq
    refine ⟨rest, ?_, ?_, fun hlt => absurd heq (Nat.ne_of_gt hlt)⟩
    · rw [List.take_of_length_le (Nat.le_of_eq heq), List.nil_append]
    · rw [List.drop_of_length_le (Nat.le_of_eq heq), List.nil_append]
  case isFalse =>
    exact ⟨_, rfl, rfl, fun _ => rfl⟩

/-- A frame is read by `readFrame` off bytes that begin with it, whatever comes behind them. -/
theorem readFrame_of_bytes {ε : Type} (what : String) (frame more : Bytes) (rest : Source ε) :
    ∃ left, readFrame what frame.length (.bytes (frame ++ more) :: rest) =
        ⟨.ok (some frame), [], left⟩ ∧
      Source.content left = more ++ Source.content rest ∧
      (more ≠ [] → left = .bytes more :: rest) := by
  have henough : frame.length ≤ (frame ++ more).length := by
    rw [List.length_append]
    exact Nat.le_add_right _ _
  obtain ⟨left, hfill, hcontent, hmore⟩ := fill_of_enough rest henough
  rw [List.take_left] at hfill
  rw [List.drop_left] at hcontent hmore
  refine ⟨left, ?_, hcontent, fun hne => hmore ?_⟩
  · rw [readFrame, hfill]
  · rw [List.length_append]
    exact Nat.lt_add_of_pos_right (List.length_pos_iff.2 hne)

namespace Pipe

variable {α : Type}

/-- What a reader of a pipe meets behind its bytes: the end if the pipe is closed, and else an event
at which it would wait (`Pipe.receive?`). -/
def tail (p : Pipe) : Source Unit := if p.closed then [] else [.event ()]

/-- There are no bytes in the `tail` of a pipe. -/
theorem content_tail (p : Pipe) : Source.content p.tail = [] := by
  unfold tail
  split <;> rfl

/-- A frame that is there whole is read by `receive?`, and what follows it stays in the pipe. -/
theorem receive?_frame (what : String) (f : Bytes → Except ProtocolFault α) {p : Pipe}
    {frame rest : Bytes} (hcontent : p.content = frame ++ rest) :
    p.receive? (fun s => (readFrame what frame.length s).decode f) =
      some (((f frame).mapError .protocol).map some, { p with content := rest }) := by
  obtain ⟨left, hread, hleft, -⟩ := readFrame_of_bytes what frame rest p.tail
  rw [content_tail, List.append_nil] at hleft
  have hsource : p.toSource = .bytes (frame ++ rest) :: p.tail := by
    rw [toSource, hcontent, tail]
  rw [receive?, hsource]
  simp only [hread, Received.decode, List.isEmpty_nil, if_true, hleft]

end Pipe

/-- A response is read from a pipe by `Pipe.receive?` as it was written by `Response.encode`. -/
theorem Response.receive?_of_encode {p : Pipe} {r : Response} {rest : Bytes}
    (h : p.content = r.encode ++ rest) :
    p.receive? Response.read = some (.ok (some r), { p with content := rest }) := by
  have hdecode : Response.decode r.encode = .ok r := by simpa using Response.decode_encode r []
  have hread := Pipe.receive?_frame "response" Response.decode h
  rw [hdecode] at hread
  exact hread

/-- At an empty pipe that is open a reader of responses waits (`Pipe.receive?`). -/
theorem Response.receive?_empty : Pipe.empty.receive? Response.read = none := by
  rfl

/-- At an empty pipe that is open a reader of requests waits (`Pipe.receive?`). -/
theorem Request.receive?_empty : Pipe.empty.receive? Request.read = none := by
  rfl

/-- At an empty pipe that is closed a reader of requests meets their end (`Pipe.close`). -/
theorem Request.receive?_closed :
    Pipe.empty.close.receive? Request.read = some (.ok none, Pipe.empty.close) := by
  rfl

/-- A pipe that begins with a request's code gives the request, if the code says all
(`payloadWidth`). -/
theorem Request.receive?_of_code {p : Pipe} {r : Request} {b : UInt8} {rest : Bytes}
    (hwidth : payloadWidth b = 0) (hdecode : decode [b] = .ok r)
    (h : p.content = [b] ++ rest) :
    p.receive? Request.read = some (.ok (some r), { p with content := rest }) := by
  obtain ⟨left, hread, hleft, -⟩ := readFrame_of_bytes "request" [b] rest p.tail
  rw [Pipe.content_tail, List.append_nil] at hleft
  have hsource : p.toSource = .bytes ([b] ++ rest) :: p.tail := by rw [Pipe.toSource, h, Pipe.tail]
  replace hread : readFrame "request" 1 (.bytes ([b] ++ rest) :: p.tail) =
    ⟨.ok (some [b]), [], left⟩ := hread
  rw [Pipe.receive?, hsource, Request.read, hread]
  simp only [if_pos hwidth, Received.decode, hdecode, List.isEmpty_nil, if_true, hleft]
  rfl

/-- A pipe that begins with a request's code and its key gives the request, if the code calls for
one (`payloadWidth`). -/
theorem Request.receive?_of_key {p : Pipe} {r : Request} {b : UInt8} {key rest : Bytes}
    (hwidth : payloadWidth b = textWidth) (hlength : key.length = textWidth)
    (hdecode : decode (b :: key) = .ok r) (h : p.content = b :: key ++ rest) :
    p.receive? Request.read = some (.ok (some r), { p with content := rest }) := by
  have hne : ¬payloadWidth b = 0 := by
    rw [hwidth]
    decide
  have hmore : key ++ rest ≠ [] := by
    intro hnil
    have hzero := congrArg List.length hnil
    rw [List.length_append, hlength] at hzero
    cases Nat.eq_zero_of_add_eq_zero_right hzero
  obtain ⟨_, hcode, -, hleft⟩ := readFrame_of_bytes "request" [b] (key ++ rest) p.tail
  obtain ⟨left, hread, hbehind, -⟩ := readFrame_of_bytes "request key" key rest p.tail
  obtain rfl := hleft hmore
  rw [Pipe.content_tail, List.append_nil] at hbehind
  rw [hlength] at hread
  have hsource : p.toSource = .bytes ([b] ++ (key ++ rest)) :: p.tail := by
    rw [Pipe.toSource, h, Pipe.tail]
    rfl
  replace hcode : readFrame "request" 1 (.bytes ([b] ++ (key ++ rest)) :: p.tail) =
    ⟨.ok (some [b]), [], .bytes (key ++ rest) :: p.tail⟩ := hcode
  rw [Pipe.receive?, hsource, Request.read, hcode]
  simp only [if_neg hne, readPayload, hread, Received.decode, hdecode, List.append_nil,
    List.isEmpty_nil, if_true, hbehind]
  rfl

/-- A request is read from a pipe as it was written, but for what stands behind a NUL in its key
(`Request.beforeNul`). -/
theorem Request.receive?_of_encode {p : Pipe} {r : Request} {frame rest : Bytes}
    (hframe : r.encode = .ok frame) (h : p.content = frame ++ rest) :
    p.receive? Request.read = some (.ok (some r.beforeNul), { p with content := rest }) := by
  have hdecode := decode_eq_of_encode hframe
  cases r with
  | connect =>
    cases hframe
    exact receive?_of_code rfl hdecode h
  | disconnect =>
    cases hframe
    exact receive?_of_code rfl hdecode h
  | subscribe key =>
    obtain ⟨field, hfield, rfl⟩ := exists_of_map_eq_ok hframe
    exact receive?_of_key rfl (length_encodeField hfield) hdecode h
  | unsubscribe key =>
    obtain ⟨field, hfield, rfl⟩ := exists_of_map_eq_ok hframe
    exact receive?_of_key rfl (length_encodeField hfield) hdecode h

namespace Client.Connection

variable {c : Connection} {r : Response}

/-- A client without a first response waits for it (`Client.Connection.greet?`). -/
theorem greet?_of_empty (h : c.responses = .empty) : c.greet? = none := by
  rw [greet?, h, Response.receive?_empty]
  rfl

/-- A client reads a first response to its registration by `greet?`, which says whether it is
connected. -/
theorem greet?_of_encode {result : ResultCode}
    (h : c.responses = Pipe.empty.write (Response.encode ⟨.connect, result⟩)) :
    c.greet? = some (if result = .ok then none else some (.transport (.refused c.id)),
      { c with responses := .empty }) := by
  have hcontent : c.responses.content = Response.encode ⟨.connect, result⟩ ++ [] := by
    rw [h]
    rfl
  rw [greet?, Response.receive?_of_encode hcontent, h]
  cases result with
  | ok => rfl
  | failed => rfl

/-- A client without a response waits for it (`Client.Connection.hear?`). -/
theorem hear?_of_empty (h : c.responses = .empty) (op : OpCode) : c.hear? op = none := by
  rw [hear?, h, Response.receive?_empty]
  rfl

/-- A client reads a response of the operation called by `hear?`, and its result is that of the
call. -/
theorem hear?_of_encode (h : c.responses.content = r.encode) :
    c.hear? r.op =
      some (.ok r.result, { c with responses := { c.responses with content := [] } }) := by
  have hanswer : answerTo r.op (.ok (some r)) = .ok r.result := if_pos rfl
  rw [hear?, Response.receive?_of_encode (h.trans (List.append_nil _).symm), Option.map_some]
  exact congrArg (fun result => some (result, _)) hanswer

/-- A request that has a frame is written by `ask` behind what is in the pipe. -/
theorem ask_of_encode {r : Request} {frame : Bytes} (h : r.encode = .ok frame) :
    c.ask r = .ok { c with requests := c.requests.write frame } := by
  rw [ask, h]

/-- A request of which the key is too long is withheld by `ask`, with the error that says so. -/
theorem ask_of_lt {r : Request} {key : String} (hr : r = .subscribe key ∨ r = .unsubscribe key)
    (h : maxTextSize < key.utf8ByteSize) :
    c.ask r = .error (.protocol (.tooLong "key" key.utf8ByteSize maxTextSize)) := by
  rw [ask, Request.encode_of_lt hr h]

end Client.Connection

/-! ## Parties by label -/

namespace Party

/-- A party that is changed by `modify` is found changed, and every other as it was. -/
theorem lookup_modify (label other : String) (f : Party → Party) (parties : List (String × Party)) :
    (modify label f parties).lookup other =
      if other = label then (parties.lookup other).map f else parties.lookup other := by
  induction parties with
  | nil => simp [modify]
  | cons first rest ih =>
    obtain ⟨name, p⟩ := first
    rw [modify]
    split
    case isTrue hname =>
      subst hname
      simp only [List.lookup_cons]
      by_cases hother : other = name
      · simp [hother]
      · simp [hother, beq_eq_false_iff_ne.2 hother]
    case isFalse hname =>
      simp only [List.lookup_cons, ih]
      by_cases hother : other = name
      · simp [hother, hname]
      · simp [beq_eq_false_iff_ne.2 hother]

/-- What a party finds once bytes for it have left the server: they are in its pipe of responses,
and its notifications may have changed, but nothing else has (`Party.take`). -/
structure Gets (bytes : Bytes) (p q : Party) : Prop where
  service : q.service = p.service
  id : q.connection.id = p.connection.id
  paths : q.connection.paths = p.connection.paths
  requests : q.connection.requests = p.connection.requests
  responses : q.connection.responses = p.connection.responses.write bytes

/-- A party that `Gets` bytes keeps its response line. -/
theorem Gets.line {bytes : Bytes} {p q : Party} (h : p.Gets bytes q) : q.line = p.line := by
  rw [Party.line, h.paths]
  rfl

/-- What a party `Gets` in two parts it gets in one, one part behind the other. -/
theorem Gets.trans {first more : Bytes} {p q r : Party} (h : p.Gets first q) (h' : q.Gets more r) :
    p.Gets (first ++ more) r where
  service := h'.service.trans h.service
  id := h'.id.trans h.id
  paths := h'.paths.trans h.paths
  requests := h'.requests.trans h.requests
  responses := by
    rw [h'.responses, h.responses, Pipe.write, Pipe.write, Pipe.write, List.append_assoc]

/-- A party that is left alone `Gets` no bytes. -/
theorem Gets.refl (p : Party) : p.Gets [] p where
  service := rfl
  id := rfl
  paths := rfl
  requests := rfl
  responses := by rw [Pipe.write, List.append_nil]

/-- Bytes that left the server reach the party on whose response line they left, by `Party.take`. -/
theorem gets_take (roster : Roster) (out : Emission) (p : Party) :
    p.Gets (Emission.bytesOn (.response p.line) [out]) (p.take roster out) := by
  obtain ⟨line, bytes⟩ := out
  cases line with
  | response name =>
    rcases Decidable.em (name = p.line) with rfl | hne
    · have hbytes : Emission.bytesOn (.response p.line) [⟨.response p.line, bytes⟩] = bytes := by
        simp [Emission.bytesOn]
      rw [hbytes, take]
      simp only [if_true]
      exact ⟨rfl, rfl, rfl, rfl, rfl⟩
    · rw [Emission.bytesOn_eq_nil (by simpa using hne), take]
      simp only [if_neg hne]
      exact .refl p
  | notification channel =>
    rw [Emission.bytesOn_eq_nil (by simp), take]
    simp only
    split
    case isTrue => exact { Gets.refl p with }
    case isFalse => exact .refl p
  | file cursor =>
    rw [Emission.bytesOn_eq_nil (by simp), take]
    exact .refl p

/-- Of all that left the server a party gets what left on its response line, in order
(`Emission.bytesOn`). -/
theorem gets_foldl_take (roster : Roster) (sent : List Emission) (p : Party) :
    p.Gets (Emission.bytesOn (.response p.line) sent)
      (sent.foldl (fun p out => p.take roster out) p) := by
  induction sent generalizing p with
  | nil => exact .refl p
  | cons out rest ih =>
    have hfirst := gets_take roster out p
    have hrest := ih (p.take roster out)
    rw [hfirst.line] at hrest
    have hwhole : Emission.bytesOn (.response p.line) (out :: rest) =
        Emission.bytesOn (.response p.line) [out] ++ Emission.bytesOn (.response p.line) rest := by
      rw [Emission.bytesOn, ← List.singleton_append, List.filter_append, List.flatMap_append]
      rfl
    rw [hwhole]
    exact hfirst.trans hrest

end Party

namespace Network

/-- A party that `update` changes is found changed by its label, and every other as it was. -/
theorem party?_update (n : Network) (label other : String) (f : Party → Party) :
    (n.update label f).party? other =
      if other = label then (n.party? other).map f else n.party? other :=
  Party.lookup_modify label other f n.parties

/-- What the server does by `Network.act` reaches each party by its own line. -/
theorem party?_act {α : Type} (n : Network)
    (f : Server Empty Job.State → α × Server Empty Job.State) (label : String) :
    (n.act f).2.party? label = (n.party? label).map fun p =>
      (f n.server).2.engine.sent.foldl (fun p out => p.take (f n.server).2.roster out) p := by
  show List.lookup label (n.parties.map _) = _
  rw [party?]
  induction n.parties with
  | nil => rfl
  | cons first rest ih =>
    rw [List.map_cons, List.lookup_cons, List.lookup_cons, ih]
    split <;> rfl

/-- A party after the server has done something by `Network.act` is the party as it was, but for
what it got on its line (`Party.Gets`). -/
theorem exists_of_party?_act {α : Type} {n : Network}
    {f : Server Empty Job.State → α × Server Empty Job.State} {label : String} {q : Party}
    (h : (n.act f).2.party? label = some q) :
    ∃ p, n.party? label = some p ∧ p.Gets ((f n.server).2.engine.writtenOn p.line) q := by
  rw [party?_act] at h
  obtain ⟨p, hp, rfl⟩ := Option.map_eq_some_iff.1 h
  exact ⟨p, hp, Party.gets_foldl_take _ _ p⟩

end Network

end KeyWatch
