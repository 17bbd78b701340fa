import KeyWatch.Scenario.Holding

/-!
# Playing scenarios

Steps are played one after another (`World.run`). A step within a session's requests is played like
any other, and its outcome becomes an event behind the events of its own. A step plays steps within
steps only as deep as steps stand within steps, and every step is played once, so the number of all
steps bounds the depth.
-/

namespace KeyWatch

mutual

/-- The number of steps in a step: itself, and those in its source. -/
def Step.count : Step → Nat
  | .enrol _ _ requests _ _ => 1 + countPieces requests
  | .registrations source => 1 + countPieces source
  | _ => 1

/-- The number of steps in a source. -/
def Step.countPieces : List (Piece Step) → Nat
  | [] => 0
  | .event step :: rest => step.count + countPieces rest
  | _ :: rest => countPieces rest

end

namespace World

/-- Opens a channel and gives it a name, and lets go of the channel that had it (`World.settle`). -/
def openNamed (w : World) (name : String) (sink : Sink) : ChannelId × World :=
  let (id, opened) := w.openChannel sink
  (id, settle { opened with outside := opened.outside.nameChannel name id })

/-- The outcome of an operation that gives nothing but an error. -/
def outcomeOf : Option Error → Outcome
  | none => .done
  | some e => .failed e

/-- What an operation on the channel of a name gives; nothing happens if there is none. -/
def onChannel (w : World) (name : String) (f : ChannelId → Outcome × World) : Outcome × World :=
  match w.outside.channels.find? name with
  | some id => f id
  | none => (.silent, w)

/-- What an operation on the client of a label gives; nothing happens if there is none. -/
def onClient (w : World) (label : String) (f : ClientHandle → Outcome × World) : Outcome × World :=
  match w.outside.client? label with
  | some h => f h
  | none => (.silent, w)

/-- The bytes that left the store become events (`Engine.taken`). -/
def collect (w : World) : World :=
  { w with
    engine := w.engine.taken
    outside := { w.outside with events := w.outside.events ++ w.engine.sent.map .left } }

/-- Something becomes an event, behind those that are there. -/
def note (w : World) (e : Event) : World :=
  { w with outside := { w.outside with events := w.outside.events ++ [e] } }

/-- The outcome of a client that was looked for, which is told by its label. -/
def clientOutcome (w : World) : Option ClientHandle → Outcome
  | none => .value none
  | some h => .client (w.outside.labelOf h)

/-- Plays a step on the table, whose notices are delivered (`Engine.apply`). -/
def playTable (w : World) : TableStep → Outcome × World
  | .write key value =>
    let (outcome, e) := w.engine.apply (·.write key value)
    (.written outcome, w.withEngine e)
  | .read key => (.value (w.engine.table.read key), w)
  | .delete key =>
    let (outcome, e) := w.engine.apply (·.delete key)
    (.deleted outcome, w.withEngine e)
  | .contains key => (.flag (w.engine.table.contains key), w)
  | .writeMany pairs =>
    let (outcomes, e) := w.engine.apply (·.writeMany pairs)
    (.writtenEach outcomes, w.withEngine e)
  | .readMany keys => (.readEach (w.engine.table.readMany keys), w)
  | .deleteMany keys =>
    let (outcomes, e) := w.engine.apply (·.deleteMany keys)
    (.deletedEach outcomes, w.withEngine e)
  | .snapshot => (.entries w.engine.table.snapshot, w)
  | .size => (.size w.engine.table.size, w)
  | .subscribersOf key => (.names (w.engine.table.subscribersOf key), w)

/-- Plays a step on the channels and subscriptions (`Engine.subscribe`, `Engine.send` and
others). -/
def playSubscription (w : World) : SubscriptionStep → Outcome × World
  | .openChannel name sink => (.silent, (w.openNamed name sink).2)
  | .send name n =>
    w.onChannel name fun id =>
      let (error, e) := w.engine.send ⟨id, n⟩
      (outcomeOf error, w.withEngine e)
  | .closeChannel name => w.onChannel name fun id => (.silent, w.closeChannel id)
  | .isClosed name => w.onChannel name fun id => (.flag (w.engine.channels.isClosed id), w)
  | .subscribe key client name =>
    w.onChannel name fun id =>
      match w.engine.subscribe key client id with
      | .ok (outcome, e) => (.subscribed outcome, w.withEngine e)
      | .error e => (.failed e, w)
  | .unsubscribe key client =>
    let (outcome, e) := w.engine.unsubscribe key client
    (.unsubscribed outcome, w.withEngine e)
  | .removeAll client =>
    let (count, e) := w.engine.removeAll client
    (.count count, w.withEngine e)
  | .keysOf client => (.names (w.engine.table.keysOf client), w)
  | .isSubscribed client key => (.flag (w.engine.table.isSubscribed client key), w)

/-- What was printed on the console since it showed a text. -/
def printedSince (console : String) (w : World) : String :=
  String.ofList (w.engine.console.toList.drop console.length)

/-- Plays a step on the job and the files (`Engine.execute`, `Engine.waitForBackups` and others). -/
def playJob (w : World) : JobStep → Outcome × World
  | .execute command out =>
    let done := w.engine.execute command w.outside.job out
    let after := { w with engine := done.engine, outside := { w.outside with job := done.job } }
    (.executed (done.emitted.getD [] ++ done.out.pending) (printedSince w.engine.console after)
      done.error, after)
  | .state => (.job w.outside.job, w)
  | .start name directory =>
    (.silent, { w with outside := { w.outside with job := Job.State.start name directory } })
  | .waitForBackups =>
    let (failure, e) := w.engine.waitForBackups
    (.backups failure e.backups.pending e.backups.available, w.withEngine e)
  | .closeEngine =>
    let (failure, e) := w.engine.waitForBackups
    (outcomeOf failure, w.withEngine e)
  | .makeFile p content =>
    (.silent, w.withEngine { w.engine with files := w.engine.files.writeOrKeep p content })
  | .makeDirectory p =>
    (.silent, w.withEngine { w.engine with files := w.engine.files.addOrKeep p .directory })
  | .files => (.files (w.engine.files.listing w.outside.directory), w)

/-- Plays a step on the clients (`Roster.insert`, `Roster.detach` and others). -/
def playClient (w : World) : ClientStep → Outcome × World
  | .add label id name =>
    w.onChannel name fun channel =>
      let (h, roster) := w.roster.add id channel
      (.silent, { w with roster, outside := w.outside.labelClient label h })
  | .insert label =>
    w.onClient label fun h =>
      let (inserted, roster) := w.roster.insert h
      (.flag inserted, { w with roster })
  | .remove id =>
    let (removed, roster) := w.roster.remove id
    (w.clientOutcome removed, { w with roster })
  | .find id => (w.clientOutcome (w.roster.find? id), w)
  | .detach label =>
    w.onClient label fun h =>
      (.flag (w.roster.present.contains h), { w with roster := w.roster.detach h })
  | .contains id => (.flag (w.roster.contains id), w)
  | .ids => (.roster w.roster.ids, w)
  | .state label =>
    w.onClient label fun h =>
      match w.roster.record? h with
      | some record => (.record record (w.engine.channels.isClosed record.channel), w)
      | none => (.silent, w)

/-- Plays a step, with steps within it played by another function. Nothing is done where the
operation would have to wait, for room in the queue or for a session in it. -/
def playStep (act : Step → World → World) (w : World) : Step → Outcome × World
  | .table step => w.playTable step
  | .subscription step => w.playSubscription step
  | .job step => w.playJob step
  | .client step => w.playClient step
  | .enrol label id requests responses notifications =>
    if w.queue.isFull then (.wouldBlock, w)
    else
      let (channel, w) := w.openNamed label notifications
      match w.enrol id (.source requests) responses label channel with
      | (.waiting _, w) => (.wouldBlock, w)
      | (.settled (.error e), w) => (.failed e, w)
      | (.settled (.ok false), w) => (.flag false, w)
      | (.settled (.ok true), w) =>
        match w.roster.find? id with
        | some h => (.flag true, { w with outside := w.outside.labelClient label h })
        | none => (.flag true, w)
  | .serve =>
    match w.serve? act with
    | none => (.wouldBlock, w)
    | some (none, w) => (.value none, w)
    | some (some (id, result), w) => (.served id result, w)
  | .queue => (.queue w.queue.size w.queue.capacity w.queue.isClosed, w)
  | .closeQueue => (.silent, { w with queue := w.queue.close })
  | .stop => (.silent, { w with stopping := true })
  | .registrations source =>
    let size := (source.map fun
      | .bytes content => content.length
      | _ => 0).foldr (· + ·) 0
    if w.hasRoom (size / Registration.frameSize) then
      let intake := w.serveRegistrations act source
      match intake.stage with
      | .ended error => (outcomeOf error, intake.server)
      | .waiting _ => (.wouldBlock, intake.server)
    else (.wouldBlock, w)
  | .register registration =>
    if w.queue.isFull then (.wouldBlock, w)
    else
      match w.register registration with
      | (.waiting _, w) => (.wouldBlock, w)
      | (.settled error, w) => (outcomeOf error, w)

/-- Plays a step (`World.playStep`), and steps within it to a depth. What is not held any more is
closed before the step and after it (`World.settle`). -/
def play : (depth : Nat) → Step → World → Outcome × World
  | 0, _, w => (.silent, w)
  | depth + 1, step, w =>
    let (outcome, w) := playStep (fun step w =>
      let (outcome, w) := play depth step w
      w.collect.note (.stepped outcome)) w.settle step
    (outcome, w.settle)

/-- Plays steps one after another, and gives of each its outcome and its events. -/
def runSteps (depth : Nat) : List Step → World → List (Outcome × List Event) × World
  | [], w => ([], w)
  | step :: rest, w =>
    let (outcome, w) := play depth step w
    let w := w.collect
    let events := w.outside.events
    let (more, w) := runSteps depth rest { w with outside := { w.outside with events := [] } }
    ((outcome, events) :: more, w)

/-- Plays a scenario to a depth that no step within its steps goes beyond (`Step.count`). -/
def run (steps : List Step) (w : World) : List (Outcome × List Event) × World :=
  runSteps ((steps.map Step.count).foldr (· + ·) 0) steps w

end World

end KeyWatch
