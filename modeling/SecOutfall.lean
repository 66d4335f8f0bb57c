import SecOutfall.Agent.ActionLine
import SecOutfall.Agent.Boots
import SecOutfall.Agent.CommandLine
import SecOutfall.Agent.Detonation
import SecOutfall.Agent.DrainWalk
import SecOutfall.Agent.DriverSource
import SecOutfall.Agent.DropEvents
import SecOutfall.Agent.DropsCollector
import SecOutfall.Agent.EventReporter
import SecOutfall.Agent.FinalizeOrder
import SecOutfall.Agent.FinalizeWindow
import SecOutfall.Agent.HostLoop
import SecOutfall.Agent.Incarnations
import SecOutfall.Agent.Membership
import SecOutfall.Agent.PersistRace
import SecOutfall.Agent.Pipeline
import SecOutfall.Agent.Quoting
import SecOutfall.Agent.RecordMapping
import SecOutfall.Agent.RegistryEvents
import SecOutfall.Agent.Scope
import SecOutfall.Agent.ScoreMeaning
import SecOutfall.Agent.ScoreReport
import SecOutfall.Agent.Scoring
import SecOutfall.Agent.ScreenshotIntake
import SecOutfall.Agent.SessionClock
import SecOutfall.Agent.SessionManager
import SecOutfall.Agent.ShellCommand
import SecOutfall.Agent.SourceEnvelope
import SecOutfall.Agent.Stamping
import SecOutfall.Agent.Store
import SecOutfall.Agent.StudyRecord
import SecOutfall.Agent.Telemetry
import SecOutfall.Agent.TemporaryFiles
import SecOutfall.Agent.TrackerRuns
import SecOutfall.Agent.WireSequence
import SecOutfall.Agent.Worker
import SecOutfall.Control.Encoders
import SecOutfall.Control.FileWatch
import SecOutfall.Control.InjectionPolicy
import SecOutfall.Control.Policies
import SecOutfall.Control.Requests
import SecOutfall.Control.Stats
import SecOutfall.Delivery.Accounting
import SecOutfall.Delivery.Conservation
import SecOutfall.Delivery.Driver
import SecOutfall.Delivery.Emissions
import SecOutfall.Delivery.Order
import SecOutfall.Delivery.Ownership
import SecOutfall.Delivery.Queue
import SecOutfall.Delivery.QueueLinks
import SecOutfall.Driver.Lifecycle
import SecOutfall.Drops.Capture
import SecOutfall.Drops.Evidence
import SecOutfall.Drops.FinalContent
import SecOutfall.Drops.Losses
import SecOutfall.Drops.StoredName
import SecOutfall.Foundations.Balance
import SecOutfall.Foundations.Broadcast
import SecOutfall.Foundations.Bytes
import SecOutfall.Foundations.CLayout
import SecOutfall.Foundations.FirstWrite
import SecOutfall.Foundations.Framing
import SecOutfall.Foundations.LastOccurrence
import SecOutfall.Foundations.Lifetimes
import SecOutfall.Foundations.ListEntry
import SecOutfall.Foundations.Memory
import SecOutfall.Foundations.NulList
import SecOutfall.Foundations.PoolList
import SecOutfall.Foundations.Runs
import SecOutfall.Foundations.Segments
import SecOutfall.Foundations.Signed64
import SecOutfall.Foundations.Utf16
import SecOutfall.Foundations.X64
import SecOutfall.Injection.AttemptCounts
import SecOutfall.Injection.Engine
import SecOutfall.Injection.ExportWalk
import SecOutfall.Injection.Gate
import SecOutfall.Injection.Handshake
import SecOutfall.Injection.Isolation
import SecOutfall.Injection.Ledger
import SecOutfall.Injection.LedgerLinks
import SecOutfall.Injection.LoadStub
import SecOutfall.Injection.NtdllBase
import SecOutfall.Injection.RingOwnership
import SecOutfall.Ipc.Client
import SecOutfall.Ipc.Frames
import SecOutfall.Ipc.Lifecycle
import SecOutfall.Ipc.Server
import SecOutfall.Ipc.Transport
import SecOutfall.Kernel.Boot
import SecOutfall.Notify.Callbacks
import SecOutfall.Notify.FileCallbacks
import SecOutfall.Notify.Identity
import SecOutfall.Notify.IdentityMap
import SecOutfall.Notify.Registry
import SecOutfall.Notify.Tracking
import SecOutfall.Protection.Coverage
import SecOutfall.Protection.Names
import SecOutfall.Protection.ObPreOperation
import SecOutfall.Protection.Table
import SecOutfall.Protocol.Envelope
import SecOutfall.Protocol.Payload
import SecOutfall.Sensor.CallRoundTrip
import SecOutfall.Sensor.ClaimedSlots
import SecOutfall.Sensor.DrainAccounting
import SecOutfall.Sensor.DrainBounds
import SecOutfall.Sensor.DrainCounters
import SecOutfall.Sensor.DrainInvariant
import SecOutfall.Sensor.DrainRuns
import SecOutfall.Sensor.HonestRing
import SecOutfall.Sensor.Interleaving
import SecOutfall.Sensor.LossCount
import SecOutfall.Sensor.PayloadWords
import SecOutfall.Sensor.Ring
import SecOutfall.Sensor.TornRecords
import SecOutfall.Sensor.Uninterrupted
import SecOutfall.UserActor.FocusWatch
import SecOutfall.UserActor.Scripted
import SecOutfall.UserActor.Synthesis
import SecOutfall.Wire.Common
import SecOutfall.Wire.Console
import SecOutfall.Wire.Decode
import SecOutfall.Wire.Dump
import SecOutfall.Wire.Extents
import SecOutfall.Wire.Records
import SecOutfall.Wire.RoundTrip
import SecOutfall.Wire.Truncation
