import MiniCloud.Library.Runs
import MiniCloud.Library.Replay
import MiniCloud.Library.VersionedMap
import MiniCloud.Library.Slots
import MiniCloud.Library.Epochs
import MiniCloud.Library.Codec
import MiniCloud.Library.JsonText
import MiniCloud.Db.Store
import MiniCloud.Db.Raft
import MiniCloud.Db.Node
import MiniCloud.Db.Transitions
import MiniCloud.Db.SnapshotRecovery
import MiniCloud.Db.Acknowledged
import MiniCloud.Db.Refinement
import MiniCloud.Db.FailedWrites
import MiniCloud.Db.JournalText
import MiniCloud.Db.TornJournal
import MiniCloud.Db.Concurrent
import MiniCloud.Db.VersionedWrites
import MiniCloud.Db.ApplyOrder
import MiniCloud.Db.SnapshotRace
import MiniCloud.Db.CallAlone
import MiniCloud.Leader.Election
import MiniCloud.Leader.MutualExclusion
import MiniCloud.Leader.Fencing
import MiniCloud.Db.FanoutPanics
import MiniCloud.Db.LogInvariant
import MiniCloud.Db.VersionHistory
import MiniCloud.Db.WatchConvergence
import MiniCloud.Db.PointInTime
import MiniCloud.Library.FirstFit
import MiniCloud.Library.Float64
import MiniCloud.Scheduler.Plan
import MiniCloud.Scheduler.Capacity
import MiniCloud.Controller.Reconcile
import MiniCloud.NodeAgent.Reconcile
import MiniCloud.Controller.Placements
import MiniCloud.Controller.Pass
import MiniCloud.LoadBalancer.Refresh
import MiniCloud.Controller.Isolation
import MiniCloud.Controller.Repeated
import MiniCloud.Runtime.Fake
import MiniCloud.NodeAgent.Removal
import MiniCloud.Library.Chains
import MiniCloud.Dns.Names
import MiniCloud.Dns.Query
import MiniCloud.Library.Tables
import MiniCloud.Mq.Broker
import MiniCloud.Mq.Accounting
import MiniCloud.Mq.DeadLetters
import MiniCloud.Mq.Groups
import MiniCloud.Mq.Redelivery
import MiniCloud.Identity.Permissions
import MiniCloud.Identity.Manager
import MiniCloud.Api.Server
import MiniCloud.Api.ReadOnly
import MiniCloud.Api.Vocabulary
import MiniCloud.Obs.Counters
import MiniCloud.Library.Files
import MiniCloud.ObjectStore.Confined
import MiniCloud.ObjectStore.Race
import MiniCloud.Library.Fields
import MiniCloud.ObjectStore.Presign
import MiniCloud.Volumes.Isolation
import MiniCloud.Volumes.Attachment
import MiniCloud.Library.Slices
import MiniCloud.LoadBalancer.Serving
import MiniCloud.LoadBalancer.Connections
import MiniCloud.LoadBalancer.Health
import MiniCloud.Scheduler.Complete
import MiniCloud.Scheduler.Spread
import MiniCloud.Controller.Admission
import MiniCloud.NodeAgent.Heartbeat
import MiniCloud.Obs.Series
import MiniCloud.Obs.Histograms
import MiniCloud.Library.Debounce
import MiniCloud.Obs.Alerts
import MiniCloud.Obs.AlertHistory
import MiniCloud.Autoscale.Controller
import MiniCloud.Cni.Bridges
import MiniCloud.Autoscale.Isolation
import MiniCloud.Autoscale.Collisions
import MiniCloud.Library.Pcg
import MiniCloud.Library.Words
import MiniCloud.Llm.Engine
import MiniCloud.Llm.Agreement
import MiniCloud.Identity.Globs
import MiniCloud.Identity.KeyLifetime
import MiniCloud.Dns.AnswerSection
import MiniCloud.NodeAgent.Ownership
import MiniCloud.Dns.Framing
import MiniCloud.Dns.Zone
import MiniCloud.Mq.Contents
import MiniCloud.Identity.Sessions
import MiniCloud.Library.Ring
import MiniCloud.Obs.Logs
import MiniCloud.Volumes.Data
import MiniCloud.Volumes.Failures
import MiniCloud.LoadBalancer.Fairness
import MiniCloud.Obs.Exposition
import MiniCloud.Obs.Expressions
import MiniCloud.Library.Urls
import MiniCloud.ObjectStore.Expiry
import MiniCloud.Autoscale.Bounds
import MiniCloud.Autoscale.Cooldown
import MiniCloud.Runtime.Lifecycle
import MiniCloud.Retry.Backoff
import MiniCloud.Dns.RoundTrip
import MiniCloud.Llm.Accounting
import MiniCloud.Library.Quorums
import MiniCloud.Library.Layers
import MiniCloud.Db.Membership
import MiniCloud.Leader.Failover
import MiniCloud.Llm.Registry
import MiniCloud.Inference.Router
import MiniCloud.Inference.Streams
import MiniCloud.Config.Environment
import MiniCloud.Api.Effects
import MiniCloud.Api.Login
import MiniCloud.Platform.Placements
import MiniCloud.ObjectStore.Refinement
import MiniCloud.Scheduler.Scaling
