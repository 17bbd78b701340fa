import KeyWatch.Scenario.Step

/-!
# What a scenario holds

A scenario can speak of a channel as long as it has a name, a subscriber listens on it, or it
belongs to a client that the scenario can speak of: one that is present, that waits in the queue or
is served, or that has a label. The channels of which it cannot speak any more are closed when a
step is over (`World.settle`), and before a step within it begins, which may take names away that
were there when subscribers let channels go.
-/

namespace KeyWatch.World

/-- The world with its store changed, and the clients and the desk as they are. -/
def withEngine (w : World) (engine : Engine) : World := { w with engine }

/-- The clients that are being served, by the state of their records. -/
def servedClients (w : World) : List ClientHandle :=
  (List.range w.roster.records.length).filter (w.roster.stateOf · == some .active)

/-- The clients whose sessions wait in the queue. -/
def queuedClients (w : World) : List ClientHandle :=
  (w.queue.ring.items.filterMap id).map Session.client

/-- The clients of which the scenario can speak: those present, queued, served or labelled. -/
def heldClients (w : World) : List ClientHandle :=
  w.roster.present ++ w.queuedClients ++ w.servedClients ++ w.outside.clients.map (·.2)

/-- The channels of which the scenario can speak: those that a subscriber listens on, that have a
name, or that belong to one of the `heldClients`. -/
def heldChannels (w : World) : List ChannelId :=
  w.engine.table.channels ++ w.outside.channels.held ++
    w.heldClients.filterMap fun h => (w.roster.record? h).map ClientRecord.channel

/-- Closes the channels that the world no longer holds (`Engine.settle`). -/
def settle (w : World) : World := w.withEngine (w.engine.settle w.heldChannels)

end KeyWatch.World
