import NodeSteward.Calls
import NodeSteward.Channel.Error
import NodeSteward.Channel.Event
import NodeSteward.Channel.Ingestion
import NodeSteward.Channel.Intake
import NodeSteward.Channel.Interference
import NodeSteward.Channel.Listing
import NodeSteward.Channel.NodeSettings
import NodeSteward.Channel.RateLimiter
import NodeSteward.Channel.Reconciliation
import NodeSteward.Channel.Record
import NodeSteward.Channel.Rehearsal
import NodeSteward.Channel.Requests
import NodeSteward.Channel.ShortChannelId
import NodeSteward.Channel.Signing
import NodeSteward.Channel.Status
import NodeSteward.Channel.Store
import NodeSteward.Channel.Subscription
import NodeSteward.Channel.Update
import NodeSteward.Channel.Verification
import NodeSteward.Config.Environment
import NodeSteward.Config.Settings
import NodeSteward.Daemon.ChannelWork
import NodeSteward.Daemon.Scheduling
import NodeSteward.Daemon.Task
import NodeSteward.Id
import NodeSteward.Json.Basic
import NodeSteward.Json.Decode
import NodeSteward.Json.Printer
import NodeSteward.Json.Source
import NodeSteward.Message.Answer
import NodeSteward.Message.Channel
import NodeSteward.Message.Member
import NodeSteward.Message.Script
import NodeSteward.Message.Settings
import NodeSteward.Message.Workflow
import NodeSteward.Number.Double
import NodeSteward.Number.Shortest
import NodeSteward.Schedule.Dispatcher
import NodeSteward.Schedule.History
import NodeSteward.Schedule.Interval
import NodeSteward.Status
import NodeSteward.StoreError
import NodeSteward.Table
import NodeSteward.Text.Blank
import NodeSteward.Text.Decimal
import NodeSteward.Text.Hex
import NodeSteward.Text.Hidden
import NodeSteward.Text.Quoted
import NodeSteward.Time.Calendar
import NodeSteward.Time.Patrol
import NodeSteward.Time.Reading
import NodeSteward.Time.Timer
import NodeSteward.Time.Timestamp
import NodeSteward.Workflow.Definition
import NodeSteward.Workflow.Edit
import NodeSteward.Workflow.Editing
import NodeSteward.Workflow.Error
import NodeSteward.Workflow.Interference
import NodeSteward.Workflow.Link
import NodeSteward.Workflow.Log
import NodeSteward.Workflow.Logging
import NodeSteward.Workflow.Node
import NodeSteward.Workflow.Parameter
import NodeSteward.Workflow.Requests
import NodeSteward.Workflow.Store
import NodeSteward.Workflow.Tree
import NodeSteward.Workflow.Trigger
import NodeSteward.Workflow.Versioning
import NodeSteward.Workflow.View
import NodeSteward.Proofs.Table
import NodeSteward.Proofs.Crew
import NodeSteward.Proofs.Workflow.Outcome
import NodeSteward.Proofs.Workflow.Reach
import NodeSteward.Proofs.Workflow.Arena
import NodeSteward.Proofs.Workflow.Walk
import NodeSteward.Proofs.Workflow.Expansion
import NodeSteward.Proofs.Workflow.Cascade
import NodeSteward.Proofs.Workflow.Change
import NodeSteward.Proofs.Workflow.Consistency
import NodeSteward.Proofs.Workflow.WholeVersion
import NodeSteward.Proofs.Workflow.Numbering
import NodeSteward.Proofs.Workflow.LinkHomes
import NodeSteward.Proofs.Workflow.Ownership
import NodeSteward.Proofs.Workflow.Overtaking
import NodeSteward.Proofs.Workflow.Discovery
import NodeSteward.Proofs.Channel.Change
import NodeSteward.Proofs.Channel.Life
import NodeSteward.Proofs.Channel.Jobs
import NodeSteward.Proofs.Channel.Interleaving
import NodeSteward.Proofs.Channel.Settling
import NodeSteward.Proofs.Schedule.Firing
import NodeSteward.Proofs.Channel.Integrity
import NodeSteward.Proofs.Channel.Recording
import NodeSteward.Proofs.Channel.Reports
import NodeSteward.Proofs.Channel.Closing
import NodeSteward.Proofs.Channel.Delivery
import NodeSteward.Proofs.Channel.Permits
import NodeSteward.Proofs.Passages
import NodeSteward.Proofs.Channel.Importing
import NodeSteward.Proofs.Channel.Inquiry
import NodeSteward.Proofs.Channel.Rounds
import NodeSteward.Proofs.Channel.Sweeping
import NodeSteward.Proofs.Channel.Known
import NodeSteward.Proofs.Workflow.Deleting
import NodeSteward.Proofs.Schedule.Accounts
import NodeSteward.Proofs.Json.Reading
import NodeSteward.Proofs.Json.Decoding
import NodeSteward.Proofs.Workflow.Payload
import NodeSteward.Proofs.Channel.Finding
import NodeSteward.Proofs.Channel.Repetition
import NodeSteward.Proofs.Workflow.References
import NodeSteward.Proofs.Workflow.Neighbours
import NodeSteward.Proofs.Workflow.Contention
import NodeSteward.Proofs.Channel.Pacing
import NodeSteward.Proofs.Channel.Transactions
import NodeSteward.Proofs.Workflow.Refusal
import NodeSteward.Proofs.Channel.Hearing
import NodeSteward.Proofs.Channel.Timeless
import NodeSteward.Proofs.Channel.Failing
import NodeSteward.Proofs.Channel.Resuming
import NodeSteward.Proofs.Workflow.Updating
import NodeSteward.Proofs.Workflow.Making
import NodeSteward.Proofs.Workflow.Views
import NodeSteward.Proofs.Workflow.Logs
import NodeSteward.Proofs.Channel.Waiting
import NodeSteward.Proofs.Schedule.Intervals
import NodeSteward.Proofs.Text.Numerals
import NodeSteward.Proofs.Channel.Packing
import NodeSteward.Proofs.Channel.Spelling
import NodeSteward.Proofs.Channel.Keeping
import NodeSteward.Proofs.Identifiers
import NodeSteward.Proofs.Text.Order
import NodeSteward.Proofs.Time.Calendar
import NodeSteward.Proofs.Time.Names
import NodeSteward.Proofs.Channel.Signatures
