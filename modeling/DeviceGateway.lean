import DeviceGateway.Access.Basic
import DeviceGateway.Access.Cache
import DeviceGateway.Access.Identify
import DeviceGateway.Activity
import DeviceGateway.Address
import DeviceGateway.Backoff.Policy
import DeviceGateway.Backoff.Retry
import DeviceGateway.Backoff.Seconds
import DeviceGateway.Bus.Basic
import DeviceGateway.Bus.Broker
import DeviceGateway.Bus.Queue
import DeviceGateway.Channel
import DeviceGateway.Config
import DeviceGateway.Duration
import DeviceGateway.Error
import DeviceGateway.EventLog
import DeviceGateway.Forwarder
import DeviceGateway.Gateway
import DeviceGateway.Health
import DeviceGateway.Json.Basic
import DeviceGateway.Json.Number
import DeviceGateway.Json.Reader
import DeviceGateway.Json.Record
import DeviceGateway.Json.Text
import DeviceGateway.Main
import DeviceGateway.Message
import DeviceGateway.Observe
import DeviceGateway.Packet
import DeviceGateway.Program
import DeviceGateway.Rehearsal.Chores
import DeviceGateway.Rehearsal.House
import DeviceGateway.Rehearsal.LogFilter
import DeviceGateway.Rehearsal.Poll
import DeviceGateway.Rehearsal.Relay
import DeviceGateway.Rehearsal.Report
import DeviceGateway.Rehearsal.Running
import DeviceGateway.Rehearsal.Scene
import DeviceGateway.Rehearsal.World
import DeviceGateway.Services
import DeviceGateway.Session.Basic
import DeviceGateway.Session.Call
import DeviceGateway.Session.Serve
import DeviceGateway.Subject
import DeviceGateway.TaskGroup
import DeviceGateway.Text.Blank
import DeviceGateway.Text.Natural
import DeviceGateway.Text.Pieces
import DeviceGateway.Text.Quoted
import DeviceGateway.Text.Unprintable
import DeviceGateway.Text.Utf8
import DeviceGateway.Topic
import DeviceGateway.Wire.Basic
import DeviceGateway.Wire.Packet
import DeviceGateway.Wire.Record
import DeviceGateway.Proofs.Text.Joining
import DeviceGateway.Proofs.Topic.Canonical
import DeviceGateway.Proofs.Topic.Coverage
import DeviceGateway.Proofs.Topic.Matching
import DeviceGateway.Proofs.Topic.Names
import DeviceGateway.Proofs.Gateway.Lead
import DeviceGateway.Proofs.Bus.Posting
import DeviceGateway.Proofs.Activity.Obeys
import DeviceGateway.Proofs.Session.Conduct
import DeviceGateway.Proofs.Bus.Deliveries
import DeviceGateway.Proofs.Bus.FanOut
import DeviceGateway.Proofs.Session.Surroundings
import DeviceGateway.Proofs.Session.SharedSessions
import DeviceGateway.Proofs.Session.Leave
import DeviceGateway.Proofs.Gateway.Routing
import DeviceGateway.Proofs.Session.Line
import DeviceGateway.Proofs.Gateway.Running
import DeviceGateway.Proofs.Gateway.Lifecycle
import DeviceGateway.Proofs.Gateway.Isolation
import DeviceGateway.Proofs.Session.Rehearsed
import DeviceGateway.Proofs.Bus.Pruning
import DeviceGateway.Proofs.Topic.Grammar
import DeviceGateway.Proofs.Access.Freshness
import DeviceGateway.Proofs.Text.Ascii
import DeviceGateway.Proofs.Json.Escaping
import DeviceGateway.Proofs.Json.Digits
import DeviceGateway.Proofs.Json.Reading
import DeviceGateway.Proofs.Wire.Lawful
import DeviceGateway.Proofs.Wire.RoundTrip
import DeviceGateway.Proofs.Activity.Reaches
import DeviceGateway.Proofs.Session.Life
import DeviceGateway.Proofs.Session.Rounds
import DeviceGateway.Proofs.Session.Publishing
import DeviceGateway.Proofs.Session.Conversation
import DeviceGateway.Proofs.Session.Replying
import DeviceGateway.Proofs.Bus.LastWord
import DeviceGateway.Proofs.Session.Changes
import DeviceGateway.Proofs.Gateway.Registry
import DeviceGateway.Proofs.Gateway.Ledger
import DeviceGateway.Proofs.Bus.Closing
import DeviceGateway.Proofs.Gateway.Forwarding
import DeviceGateway.Proofs.Gateway.Lines
import DeviceGateway.Proofs.Gateway.Listening
import DeviceGateway.Proofs.Session.Denied
import DeviceGateway.Proofs.Gateway.Denials
import DeviceGateway.Proofs.Json.Controls
import DeviceGateway.Proofs.Wire.EventLines
import DeviceGateway.Proofs.Session.Observing
import DeviceGateway.Proofs.Tasks.GroupWait
import DeviceGateway.Proofs.Tasks.Grace
import DeviceGateway.Proofs.Tasks.Reports
import DeviceGateway.Proofs.Tasks.Rehearsed
import DeviceGateway.Proofs.Bus.AnyOrder
import DeviceGateway.Proofs.Session.Returning
import DeviceGateway.Proofs.Session.Requests
import DeviceGateway.Proofs.Session.Observers
import DeviceGateway.Proofs.Session.Agreeing
import DeviceGateway.Proofs.Backoff.Course
import DeviceGateway.Proofs.Tasks.Outcome
import DeviceGateway.Proofs.Access.Keeping
import DeviceGateway.Proofs.Access.Remembering
import DeviceGateway.Proofs.Config.Settings
import DeviceGateway.Proofs.Access.Lifetime
import DeviceGateway.Proofs.Text.Trimming
import DeviceGateway.Proofs.Config.Tables
import DeviceGateway.Proofs.Json.Compact
import DeviceGateway.Proofs.Json.Shortest
import DeviceGateway.Proofs.Wire.Growth
import DeviceGateway.Proofs.Double.Sizes
import DeviceGateway.Proofs.Double.Bits
import DeviceGateway.Proofs.Double.Rounding
import DeviceGateway.Proofs.Double.Arithmetic
import DeviceGateway.Proofs.Backoff.Seconds
import DeviceGateway.Proofs.Backoff.Safety
