import ReplicaRouter.Calendar.DayNumber
import ReplicaRouter.Session.Step
import ReplicaRouter.Proofs.Session.StatementLog
import ReplicaRouter.Proofs.Session.Counters
import ReplicaRouter.Proofs.Session.Lifetime
import ReplicaRouter.Proofs.Session.Closing
import ReplicaRouter.Proofs.Rotation
import ReplicaRouter.Proofs.Session.Dispatch
import ReplicaRouter.Proofs.Numerals
import ReplicaRouter.Proofs.Json.RoundTrip
import ReplicaRouter.Proofs.Settings.RoundTrip
import ReplicaRouter.Proofs.Shard.Integers
import ReplicaRouter.Proofs.Shard.Division
import ReplicaRouter.Proofs.Shard.Boundaries
import ReplicaRouter.Proofs.Shard.Remainders
import ReplicaRouter.Proofs.Shard.Partitions
import ReplicaRouter.Proofs.Shard.Rules
import ReplicaRouter.Proofs.Shard.Readings
import ReplicaRouter.Proofs.Shard.Spellings
import ReplicaRouter.Proofs.Shard.Dates
import ReplicaRouter.Proofs.Shard.Chronology
import ReplicaRouter.Proofs.Addresses
import ReplicaRouter.Proofs.Construction
import ReplicaRouter.Proofs.Session.Probing
import ReplicaRouter.Proofs.Session.Expiries
import ReplicaRouter.Proofs.Session.Holds
import ReplicaRouter.Proofs.Session.Premises
import ReplicaRouter.Proofs.Session.Agreement
import ReplicaRouter.Proofs.Session.Building
import ReplicaRouter.Proofs.Session.Observation
import ReplicaRouter.Proofs.Session.Schedule
import ReplicaRouter.Proofs.Session.Shutdown
import ReplicaRouter.Proofs.Rotation.Proportions
import ReplicaRouter.Proofs.Rotation.Reduced
import ReplicaRouter.Proofs.Shard.Instants
import ReplicaRouter.Proofs.Shard.Granularity
import ReplicaRouter.Proofs.Json.Fields
import ReplicaRouter.Proofs.Settings.Partial
