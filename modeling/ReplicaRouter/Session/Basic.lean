import ReplicaRouter.Node

/-! # Sessions

A session is the servers, the clock, at most one node, the failures its probe has reported and the
transactions begun so far. A transaction is named by its place among them.

* `Session.change` changes a transaction together with its server, `Session.finish` ends one.
* `Session.probe` runs one probe round of the node.
-/

namespace ReplicaRouter

/-- Everything a step can see or change. -/
structure Session where
  /-- The clock, in nanoseconds from the start. -/
  clock : Nat := 0
  /-- The local offset in seconds east of universal time. -/
  offset : Int := 0
  generator : Generator
  cluster : Cluster := {}
  transactions : List Transaction := []
  node : Option Node := none
  /-- The failures reported and not yet taken. -/
  failures : List RouterError := []
deriving Repr, DecidableEq

namespace Session

/-- A session in which nothing has happened. -/
def fresh (generator : Generator) (offset : Int) : Session := { generator, offset }

/-- What the clock reads in whole milliseconds. -/
def now (s : Session) : Nat := s.clock / Duration.perMilli

def put (s : Session) (id : Nat) (t : Transaction) : Session :=
  { s with transactions := s.transactions.set id t }

/-- Changes the transaction at a place, if there is one, and its server with it. -/
def change (s : Session) (id : Nat) (f : Transaction → Cluster → Transaction × Cluster) : Session :=
  match s.transactions[id]? with
  | none => s
  | some t =>
    let (t, cluster) := f t s.cluster
    { s.put id t with cluster }

/-- Ends the transaction at a place, if it is live. -/
def finish (s : Session) (id : Nat) (ending : Ending) : Session :=
  s.change id fun t c => t.finish c ending

/-- Runs one probe round of the node and keeps what it reports. The number is that of the
refusals. -/
def probe (s : Session) (n : Node) : Nat × Session :=
  let (errors, cluster) := n.probe s.cluster
  (errors.length, { s with cluster, failures := s.failures ++ errors })

end Session

end ReplicaRouter
