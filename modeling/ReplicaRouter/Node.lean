import ReplicaRouter.Rotation
import ReplicaRouter.Shard.Plan
import ReplicaRouter.Transaction

/-! # Nodes

A node is a master, its weighted replicas and the sharding plan of their tables.

* `Node.build` validates the settings, makes the plan, enlists the master and then the replicas in
  order, and only then draws a generator for the rotation. A node's probe therefore has a period.
* `Node.master?` and `Node.replica?` give the server to use while the node is not closed.
* `Node.probe` pings every server once and reports those that refuse.
* `Node.due?` and `Node.probed` are the schedule of the background probe.
-/

namespace ReplicaRouter

/-- A replica: the address it was configured with and that of the server reached. -/
structure Replica where
  addr : String
  server : String
deriving Repr, DecidableEq

/-- A routing entry point. -/
structure Node where
  settings : Settings
  /-- The address of the master's server. -/
  masterServer : String
  replicas : List Replica
  rotation : Rotation
  plan : Plan
  closed : Bool := false
  /-- The instant for which the timer of the next background probe is set. -/
  nextProbe : Nat
  /-- The probe has a period. -/
  period_pos : 0 < settings.checkInterval.toNat
deriving Repr, DecidableEq

namespace Node

/-! ## Construction -/

/-- Enlists replicas in order, counting places from `index`, and stops at the first that refuses. -/
def enlistReplicas (pool : Pool) :
    Nat → List Endpoint → Cluster → Except RouterError (List Replica) × Cluster
  | _, [], c => (.ok [], c)
  | index, e :: rest, c =>
    match c.enlist pool e.dsn with
    | (.error cause, c) => (.error (.replicaUnreachable index e.addr cause), c)
    | (.ok server, c) =>
      match enlistReplicas pool (index + 1) rest c with
      | (.error err, c) => (.error err, c)
      | (.ok replicas, c) => (.ok (⟨e.addr, server⟩ :: replicas), c)

/-- Enlists the master and then the replicas. -/
def enlistAll (s : Settings) (c : Cluster) :
    Except RouterError (String × List Replica) × Cluster :=
  match c.enlist s.pool s.master.dsn with
  | (.error cause, c) => (.error (.masterUnreachable s.master.addr cause), c)
  | (.ok master, c) =>
    match enlistReplicas s.pool 0 s.replicas c with
    | (.error err, c) => (.error err, c)
    | (.ok replicas, c) => (.ok (master, replicas), c)

/-- The node over its enlisted servers, built at a reading of the clock. -/
def assemble (s : Settings) (valid : s.validate = .ok ()) (plan : Plan) (masterServer : String)
    (replicas : List Replica) (rotation : Rotation) (now : Nat) : Node :=
  { settings := s, masterServer, replicas, rotation, plan
    nextProbe := now + s.checkPeriod.nanos
    period_pos := Settings.checkInterval_pos valid }

/-- Builds a node at a reading of the clock. The generator is drawn from once, and only if every
server was enlisted. -/
def build (s : Settings) (now : Nat) (g : Generator) (c : Cluster) :
    Except RouterError Node × Generator × Cluster :=
  match valid : s.validate with
  | .error err => (.error err, g, c)
  | .ok () =>
    match Plan.ofRules s.rules with
    | .error err => (.error err, g, c)
    | .ok plan =>
      match enlistAll s c with
      | (.error err, c) => (.error err, g, c)
      | (.ok (master, replicas), c) =>
        let (forked, g) := g.fork
        let (rotation, _) := Rotation.ofWeights s.weights forked
        (.ok (assemble s valid plan master replicas rotation now), g, c)

/-! ## Requests -/

def master? (n : Node) : Except RouterError String :=
  if n.closed then .error .masterClosed else .ok n.masterServer

/-- The server of the next replica, and the node with its rotation moved on. -/
def replica? (n : Node) : Except RouterError (String × Node) :=
  if n.closed then .error .replicasClosed
  else match n.rotation.next? with
    | none => .error .noReplica
    | some (i, rotation) =>
      match n.replicas[i]? with
      | none => .error .noReplica
      | some r => .ok (r.server, { n with rotation })

/-- Refuses requests from now on and stops the background probe. -/
def close (n : Node) : Node := { n with closed := true }

/-! ## Liveness -/

/-- The servers to probe, each with the error that reports its refusal: the master and then the
replicas in order. -/
def targets (n : Node) : List (String × (DriverError → RouterError)) :=
  (n.masterServer, .masterUnreachable n.settings.master.addr)
    :: n.replicas.zipIdx.map fun (r, i) => (r.server, .replicaUnreachable i r.addr)

/-- Pings every target in order and reports the refusals. -/
def pingAll : List (String × (DriverError → RouterError)) → Cluster → List RouterError × Cluster
  | [], c => ([], c)
  | (server, report) :: rest, c =>
    let (refusal, c) := c.ping server
    let (errors, c) := pingAll rest c
    ((refusal.map report).toList ++ errors, c)

def probe (n : Node) (c : Cluster) : List RouterError × Cluster :=
  pingAll n.targets c

/-- When the next background probe is due. A closed node has none. -/
def due? (n : Node) : Option Nat :=
  if n.closed then none else some (Timer.wake n.nextProbe)

theorem due?_eq_some {n : Node} {due : Nat} :
    n.due? = some due ↔ n.closed = false ∧ Timer.wake n.nextProbe = due := by
  unfold due?
  cases n.closed <;> simp

/-- How late a probe may run and still keep its schedule. -/
def lateness : Duration := .ofMillis 5

/-- The period of the background probe. -/
def period (n : Node) : Duration := n.settings.checkPeriod

/-- The node after a background probe: the next one is a period after this one was due or, if it
ran too late for that, a period after now. -/
def probed (n : Node) (now : Nat) : Node :=
  { n with
    nextProbe :=
      (if lateness.nanos + n.nextProbe < now then now else n.nextProbe) + n.period.nanos }

theorem period_nanos (n : Node) :
    n.period.nanos = Duration.perMilli * n.settings.checkInterval.toNat := rfl

theorem period_nanos_pos (n : Node) : 0 < n.period.nanos :=
  Nat.mul_pos (by decide) n.period_pos

/-- The timer of a probe a period later acts a period later. -/
theorem wake_add_period (n : Node) (t : Nat) :
    Timer.wake (t + n.period.nanos) = Timer.wake t + n.period.nanos := by
  rw [period_nanos, Timer.wake_add_millis]

/-- A probe that runs when its timer acts is not late. -/
theorem nextProbe_probed_wake (n : Node) :
    (n.probed (Timer.wake n.nextProbe)).nextProbe = n.nextProbe + n.period.nanos := by
  have hwake := Timer.wake_lt n.nextProbe
  have hlate : ¬ lateness.nanos + n.nextProbe < Timer.wake n.nextProbe := by
    simp only [lateness, Duration.ofMillis, Duration.perMilli] at hwake ⊢
    omega
  simp only [probed, hlate, if_false]

/-- A background probe puts the next one off by a period at least. -/
theorem le_due_probed (n : Node) (now : Nat) :
    Timer.wake n.nextProbe + n.period.nanos ≤ Timer.wake (n.probed now).nextProbe := by
  have hnext : n.nextProbe ≤ if lateness.nanos + n.nextProbe < now then now else n.nextProbe := by
    split <;> omega
  rw [← wake_add_period]
  exact Timer.wake_mono (Nat.add_le_add_right hnext _)

end Node

end ReplicaRouter
