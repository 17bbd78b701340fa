import KeyWatch.Backup.Limiter
import KeyWatch.Backup.Snapshot
import KeyWatch.Channel
import KeyWatch.Channel.Names
import KeyWatch.Client.Command
import KeyWatch.Client.Connection
import KeyWatch.Client.Paths
import KeyWatch.Config
import KeyWatch.Engine
import KeyWatch.Error
import KeyWatch.Files.Buffered
import KeyWatch.Files.System
import KeyWatch.Job.Command
import KeyWatch.Job.Execute
import KeyWatch.Job.Output
import KeyWatch.Job.Runner
import KeyWatch.Job.State
import KeyWatch.Main
import KeyWatch.Network.Basic
import KeyWatch.Network.Lockstep
import KeyWatch.OrderedMap
import KeyWatch.Path
import KeyWatch.Pipe.Basic
import KeyWatch.Pipe.Fifo
import KeyWatch.Pipe.Sink
import KeyWatch.Pipe.Source
import KeyWatch.Proofs.Backup.Pending
import KeyWatch.Proofs.Backup.Published
import KeyWatch.Proofs.Files.Names
import KeyWatch.Proofs.Files.Places
import KeyWatch.Proofs.Files.Walk
import KeyWatch.Proofs.Job.Fields
import KeyWatch.Proofs.Job.Paths
import KeyWatch.Proofs.Job.Replay
import KeyWatch.Proofs.Job.Results
import KeyWatch.Proofs.Job.Spelled
import KeyWatch.Proofs.Job.Transcript
import KeyWatch.Proofs.Job.Underway
import KeyWatch.Proofs.Network.Dialogue
import KeyWatch.Proofs.Network.Orderly
import KeyWatch.Proofs.Network.Paired
import KeyWatch.Proofs.Network.Parties
import KeyWatch.Proofs.Network.Tidy
import KeyWatch.Proofs.Notice.BrokenOff
import KeyWatch.Proofs.Notice.Delivery
import KeyWatch.Proofs.Notice.Files
import KeyWatch.Proofs.Notice.Following
import KeyWatch.Proofs.Notice.History
import KeyWatch.Proofs.Notice.Law
import KeyWatch.Proofs.Notice.OneChannel
import KeyWatch.Proofs.Pipe.Merged
import KeyWatch.Proofs.Pipe.Steady
import KeyWatch.Proofs.Queue.Backlog
import KeyWatch.Proofs.Queue.Interleaving
import KeyWatch.Proofs.Queue.Slots
import KeyWatch.Proofs.Session.Answers
import KeyWatch.Proofs.Session.Lifetime
import KeyWatch.Proofs.Session.OneLine
import KeyWatch.Proofs.Session.Restore
import KeyWatch.Proofs.Session.Sound
import KeyWatch.Proofs.Session.Talk
import KeyWatch.Proofs.Session.Written
import KeyWatch.Proofs.Store.Batches
import KeyWatch.Proofs.Store.Isolation
import KeyWatch.Proofs.Store.Leaving
import KeyWatch.Proofs.Store.Operation
import KeyWatch.Proofs.Table.Batch
import KeyWatch.Proofs.Table.Consistent
import KeyWatch.Proofs.Table.Contents
import KeyWatch.Proofs.Table.Past
import KeyWatch.Proofs.Table.Without
import KeyWatch.Proofs.Text.Utf8
import KeyWatch.Proofs.Wire.Alike
import KeyWatch.Proofs.Wire.Decoded
import KeyWatch.Proofs.Wire.Encoded
import KeyWatch.Proofs.Wire.FieldText
import KeyWatch.Proofs.Wire.RoundTrip
import KeyWatch.Queue.Basic
import KeyWatch.Queue.Ring
import KeyWatch.Queue.Waiting
import KeyWatch.Scenario.Holding
import KeyWatch.Scenario.Play
import KeyWatch.Scenario.Step
import KeyWatch.Semaphore
import KeyWatch.Session.Roster
import KeyWatch.Session.Serve
import KeyWatch.Session.Server
import KeyWatch.Table.Basic
import KeyWatch.Table.Batch
import KeyWatch.Table.Bucket
import KeyWatch.Table.ClientIndex
import KeyWatch.Table.Effect
import KeyWatch.Table.Route
import KeyWatch.Table.Subscriber
import KeyWatch.Table.Subscription
import KeyWatch.Text.Blank
import KeyWatch.Text.Quoted
import KeyWatch.Text.Scan
import KeyWatch.Text.Unprintable
import KeyWatch.Text.Utf8
import KeyWatch.Wire.Code
import KeyWatch.Wire.Field
import KeyWatch.Wire.Notification
import KeyWatch.Wire.Registration
import KeyWatch.Wire.Request
import KeyWatch.Wire.Response
import KeyWatch.Proofs.Store.Commuting
import KeyWatch.Backup.Disk
import KeyWatch.Proofs.Session.Enrolment
import KeyWatch.Proofs.Files.Plain
import KeyWatch.Proofs.Backup.Outcome
import KeyWatch.Proofs.Backup.Waiting
import KeyWatch.Proofs.Wire.Whole
import KeyWatch.Proofs.Pipe.Blocks
import KeyWatch.Proofs.Session.Intake
import KeyWatch.Proofs.Job.Products
import KeyWatch.Proofs.Client.Keys
import KeyWatch.Proofs.Job.Legible
import KeyWatch.Proofs.Session.Interrupted
import KeyWatch.Proofs.Notice.Audience
