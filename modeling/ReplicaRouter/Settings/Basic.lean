import ReplicaRouter.Duration
import ReplicaRouter.Error

/-! # Settings

What a node is built from: the endpoints of a master and its replicas, limits for connection pools,
sharding rules, and the period of the liveness probe. Every field has a default.

* `Settings.validate` finds the first fault, looking at the master, the replicas in order and the
  period.
-/

namespace ReplicaRouter

/-- How to reach one database server. -/
structure Endpoint where
  /-- The address of the server. -/
  addr : String := ""
  user : String := ""
  password : String := ""
  /-- The zone in which the server's times are read. -/
  timezone : String := "Local"
  /-- The share of reads, compared with the other replicas. -/
  weight : UInt32 := 1
deriving Repr, DecidableEq

/-- One sharding rule of a table. -/
structure ShardRule where
  db : String := ""
  table : String := ""
  /-- The modulus of a rule by remainder. -/
  modulus : Int64 := 0
  /-- The number of ranges of a rule by range. -/
  ranges : Int64 := 0
  /-- The name of the strategy. -/
  tag : String := ""
  /-- The keys of each range of a rule by range. -/
  rangeWidth : Int64 := 0
deriving Repr, DecidableEq

/-- What a node is built from. -/
structure Settings where
  name : String := ""
  /-- The most open connections of a pool. -/
  maxOpen : UInt32 := 0
  /-- The most idle connections of a pool. -/
  maxIdle : UInt32 := 2
  /-- The longest life of a connection in seconds, zero for no limit. -/
  maxLifetime : UInt64 := 0
  master : Endpoint := {}
  replicas : List Endpoint := []
  rules : List ShardRule := []
  /-- The period of the liveness probe in milliseconds. -/
  checkInterval : UInt64 := 30000
deriving Repr, DecidableEq

namespace Settings

/-- The longest life of a connection. -/
def lifetime (s : Settings) : Duration := .of s.maxLifetime.toNat 0

/-- The period of the liveness probe. -/
def checkPeriod (s : Settings) : Duration := .ofMillis s.checkInterval.toNat

/-- The weights of the replicas. -/
def weights (s : Settings) : List Nat := s.replicas.map (·.weight.toNat)

/-- The fault of the replica at a place: no address, or else no weight. -/
def replicaFault? (e : Endpoint) (index : Nat) : Option SettingsFault :=
  if e.addr = "" then some (.replicaAddress index)
  else if e.weight = 0 then some (.replicaWeight index)
  else none

/-- Whether a node can be built from the settings, or the first reason against it. -/
def validate (s : Settings) : Except RouterError Unit :=
  if s.master.addr = "" then .error .noMaster
  else match s.replicas.zipIdx.findSome? fun (e, i) => replicaFault? e i with
    | some fault => .error (.invalidSettings fault)
    | none =>
      if s.checkInterval = 0 then .error (.invalidSettings .checkInterval) else .ok ()

/-- Valid settings probe at a period. -/
theorem checkInterval_pos {s : Settings} (h : s.validate = .ok ()) :
    0 < s.checkInterval.toNat := by
  have hne : s.checkInterval ≠ 0 := by
    intro h0
    unfold validate at h
    rw [if_pos h0] at h
    split at h
    · cases h
    · split at h <;> cases h
  exact Nat.pos_of_ne_zero fun h0 => hne (UInt64.toNat_inj.1 h0)

end Settings

end ReplicaRouter
