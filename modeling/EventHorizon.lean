import EventHorizon.Adapters.Base
import EventHorizon.Adapters.Http
import EventHorizon.Attestation.Agreement
import EventHorizon.Attestation.Canonical
import EventHorizon.Attestation.Quote
import EventHorizon.Attestation.Tpm
import EventHorizon.Behavior.Quarantine
import EventHorizon.Broker.Attestation
import EventHorizon.Broker.Ceiling
import EventHorizon.Broker.Claims
import EventHorizon.Broker.Issue
import EventHorizon.Broker.OneUse
import EventHorizon.Broker.Transfer
import EventHorizon.Broker.Verify
import EventHorizon.Canonical.Digest
import EventHorizon.Canonical.Dumps
import EventHorizon.Canonical.Forms
import EventHorizon.Canonical.Json
import EventHorizon.Canonical.Laws
import EventHorizon.Canonical.Limits
import EventHorizon.Canonical.Lines
import EventHorizon.Canonical.Loads
import EventHorizon.Canonical.Patterns
import EventHorizon.Canonical.Python
import EventHorizon.Canonical.RoundTrip
import EventHorizon.Canonical.Sha256
import EventHorizon.Canonical.Surrogates
import EventHorizon.Decay.Authority
import EventHorizon.Decay.Budgets
import EventHorizon.Decay.Engine
import EventHorizon.Decay.Observations
import EventHorizon.Decay.Runs
import EventHorizon.Decay.Sqlite
import EventHorizon.Decay.Transition
import EventHorizon.Evidence.Contract
import EventHorizon.Evidence.Honest
import EventHorizon.Evidence.Recovery
import EventHorizon.Evidence.Story
import EventHorizon.Executor.Outcome
import EventHorizon.FailSafe.Hardware
import EventHorizon.FailSafe.Heartbeats
import EventHorizon.FailSafe.Rearming
import EventHorizon.Guardians.Issuer
import EventHorizon.Guardians.Quorum
import EventHorizon.Keys.Provider
import EventHorizon.Keys.Revocations
import EventHorizon.Keys.Rotation
import EventHorizon.Keys.Statuses
import EventHorizon.Library.Base64
import EventHorizon.Library.Except
import EventHorizon.Library.FileTree
import EventHorizon.Library.History
import EventHorizon.Library.LeaderLogs
import EventHorizon.Library.Machine
import EventHorizon.Library.Majority
import EventHorizon.Library.Phases
import EventHorizon.Library.Reader
import EventHorizon.Library.Reduction
import EventHorizon.Library.Table
import EventHorizon.Library.Transducer
import EventHorizon.Observability.Alerting
import EventHorizon.Policy.Admission
import EventHorizon.Policy.Ceiling
import EventHorizon.Policy.Compiler
import EventHorizon.Policy.Reductions
import EventHorizon.Policy.Requests
import EventHorizon.Policy.Static
import EventHorizon.Policy.StaticCeiling
import EventHorizon.Policy.Values
import EventHorizon.Protocol.Answers
import EventHorizon.Protocol.Closure
import EventHorizon.Protocol.Frames
import EventHorizon.Protocol.Responses
import EventHorizon.Protocol.Serve
import EventHorizon.Raft.Agreement
import EventHorizon.Raft.Atomic
import EventHorizon.Raft.Checkpoint
import EventHorizon.Raft.Cluster
import EventHorizon.Raft.Consumption
import EventHorizon.Raft.Convergence
import EventHorizon.Raft.Durable
import EventHorizon.Raft.Election
import EventHorizon.Raft.Indices
import EventHorizon.Raft.Ledger
import EventHorizon.Raft.Moves
import EventHorizon.Raft.Node
import EventHorizon.Raft.Proposal
import EventHorizon.Raft.Replication
import EventHorizon.Raft.Sections
import EventHorizon.Raft.Soundness
import EventHorizon.Raft.Store
import EventHorizon.Raft.Terms
import EventHorizon.Recorder.Intact
import EventHorizon.Recorder.Log
import EventHorizon.Recorder.Telemetry
import EventHorizon.Replay.Client
import EventHorizon.Replay.Consumption
import EventHorizon.Replay.Durable
import EventHorizon.Replay.Etcd
import EventHorizon.Replay.State
import EventHorizon.Replay.Stores
import EventHorizon.Writes.Adapter
import EventHorizon.Writes.Prepare
