import Skirmish.Client.Basic
import Skirmish.Client.Controls
import Skirmish.Client.Replica
import Skirmish.CommandLine.Client
import Skirmish.CommandLine.Server
import Skirmish.Component
import Skirmish.Control.Message
import Skirmish.Control.Stream
import Skirmish.Data.SortedMap
import Skirmish.Endpoint
import Skirmish.Entity.Call
import Skirmish.Entity.Column
import Skirmish.Entity.Handle
import Skirmish.Entity.Pool
import Skirmish.Entity.Registry
import Skirmish.Gateway.Basic
import Skirmish.Gateway.Connection
import Skirmish.Gateway.Counters
import Skirmish.Gateway.Queue
import Skirmish.Geometry
import Skirmish.Json.Number
import Skirmish.Json.Value
import Skirmish.Main
import Skirmish.Match
import Skirmish.Number.Double
import Skirmish.Number.Duration
import Skirmish.Number.Single
import Skirmish.Proofs.Allocation
import Skirmish.Proofs.Anatomy
import Skirmish.Proofs.Attention
import Skirmish.Proofs.Bookkeeping
import Skirmish.Proofs.Conversation
import Skirmish.Proofs.Endings
import Skirmish.Proofs.Evolution
import Skirmish.Proofs.Hearing
import Skirmish.Proofs.Isolation
import Skirmish.Proofs.Ledger
import Skirmish.Proofs.Mirror
import Skirmish.Proofs.Order
import Skirmish.Proofs.Replication
import Skirmish.Proofs.Roster
import Skirmish.Proofs.RoundTrip
import Skirmish.Proofs.Run
import Skirmish.Proofs.Sessions
import Skirmish.Proofs.Unintroduced
import Skirmish.Proofs.Systems
import Skirmish.Proofs.Turns
import Skirmish.Proofs.Utf8
import Skirmish.Random.ChaCha
import Skirmish.Random.Generator
import Skirmish.Random.Uniform
import Skirmish.Server
import Skirmish.Session.Table
import Skirmish.Settings.Basic
import Skirmish.Settings.Reading
import Skirmish.Simulation
import Skirmish.Text.Character
import Skirmish.Text.Numeral
import Skirmish.Text.Utf8
import Skirmish.Text.Word
import Skirmish.Wire.Layout
import Skirmish.Wire.NameField
import Skirmish.Wire.Packet
import Skirmish.Wire.Payload
import Skirmish.World.Basic
import Skirmish.World.Collision
import Skirmish.World.Dispatch
import Skirmish.World.Expiry
import Skirmish.World.Motion
import Skirmish.World.Reaping
import Skirmish.World.Snapshot
import Skirmish.World.Steering
import Skirmish.World.Wave
import Skirmish.Proofs.Recycling
import Skirmish.Proofs.Inventory
import Skirmish.Proofs.Acceptance
import Skirmish.Proofs.NormalForm
import Skirmish.Proofs.Spelling
import Skirmish.Proofs.Framing
import Skirmish.Proofs.Changes
import Skirmish.Proofs.Datagrams
import Skirmish.Proofs.Notices
import Skirmish.Proofs.News
import Skirmish.Proofs.PendingInput
import Skirmish.Proofs.Intent
import Skirmish.Proofs.Arrivals
import Skirmish.Proofs.Replay
import Skirmish.Proofs.Volley
import Skirmish.Proofs.Strikes
import Skirmish.Proofs.Targeting
import Skirmish.Proofs.Approach
import Skirmish.Proofs.Sweep
import Skirmish.Proofs.Cadence
import Skirmish.Proofs.Recipients
import Skirmish.Proofs.Newcomers
import Skirmish.Proofs.Destruction
import Skirmish.Proofs.Snapshots
import Skirmish.Proofs.Rejoining
import Skirmish.Proofs.Admission
import Skirmish.Proofs.Truncation
import Skirmish.Proofs.Undecodable
import Skirmish.Proofs.Identity
import Skirmish.Proofs.Namesakes
import Skirmish.Proofs.Failing
import Skirmish.Proofs.Lexing
import Skirmish.Proofs.Grammar
import Skirmish.Proofs.Arguments
import Skirmish.Proofs.Comparison
import Skirmish.Proofs.Confinement
import Skirmish.Proofs.Bounds
import Skirmish.Proofs.Safety
