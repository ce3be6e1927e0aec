import ReplicaRouter.Dsn

/-! # Clusters of servers

The servers that a driver reaches, by address. A server counts what is done to it, and can be told
to refuse connections, pings or transactions.

* `Cluster.get` and `Cluster.modify` are the view of a cluster and its one change: an address that
  was never used has a fresh server.
* `Cluster.connect`, `Cluster.tune`, `Cluster.ping` and `Cluster.admitTransaction` are what a driver
  does to a server; `Cluster.enlist` opens one for a node.
-/

namespace ReplicaRouter

/-- The limits of a server's connection pool. -/
structure Pool where
  maxOpen : UInt32 := 0
  maxIdle : UInt32 := 0
  maxLifetime : Duration := ⟨0⟩
deriving Repr, DecidableEq

/-- The limits that settings ask for. -/
def Settings.pool (s : Settings) : Pool :=
  { maxOpen := s.maxOpen, maxIdle := s.maxIdle, maxLifetime := s.lifetime }

/-- A server as its driver sees it. Its counters are unbounded here; kept in words of 64 bits they
wrap around past `2 ^ 64 - 1`. -/
structure Server where
  refusesOpen : Bool := false
  refusesPing : Bool := false
  refusesBegin : Bool := false
  opens : Nat := 0
  pings : Nat := 0
  begins : Nat := 0
  commits : Nat := 0
  rollbacks : Nat := 0
  /-- The limits set last. -/
  pool : Pool := {}
  /-- The statements of committed transactions, in the order of the commits. -/
  statements : List String := []
deriving Repr, DecidableEq

/-- What a server can be told to refuse. -/
inductive Refusal
  | opening
  | pinging
  | beginning
deriving Repr, DecidableEq

/-- Tells a server to refuse or to admit. -/
def Server.refuse (s : Server) (on : Bool) : Refusal → Server
  | .opening => { s with refusesOpen := on }
  | .pinging => { s with refusesPing := on }
  | .beginning => { s with refusesBegin := on }

/-- Servers by address. -/
structure Cluster where
  servers : List (String × Server) := []
deriving Repr, DecidableEq

namespace Cluster

def get (c : Cluster) (addr : String) : Server := (c.servers.lookup addr).getD {}

/-- Changes the entry at an address, or adds one. -/
def modifyEntry (addr : String) (f : Server → Server) :
    List (String × Server) → List (String × Server)
  | [] => [(addr, f {})]
  | (a, s) :: rest => if addr = a then (a, f s) :: rest else (a, s) :: modifyEntry addr f rest

def modify (c : Cluster) (addr : String) (f : Server → Server) : Cluster :=
  ⟨modifyEntry addr f c.servers⟩

theorem lookup_modifyEntry (addr b : String) (f : Server → Server) (l : List (String × Server)) :
    ((modifyEntry addr f l).lookup b).getD {} =
      if b = addr then f ((l.lookup addr).getD {}) else (l.lookup b).getD {} := by
  induction l with
  | nil =>
    by_cases h : b = addr <;>
      simp [modifyEntry, List.lookup_cons, List.lookup_nil, h, beq_eq_false_iff_ne.2]
  | cons e rest ih =>
    obtain ⟨a, s⟩ := e
    by_cases ha : addr = a
    · subst ha
      by_cases h : b = addr
      · subst h; simp [modifyEntry]
      · have hb : (b == addr) = false := by simpa using h
        simp [modifyEntry, List.lookup_cons, hb, h]
    · have hab : (addr == a) = false := by simpa using ha
      by_cases hb : b = a
      · subst hb
        simp [modifyEntry, ha, Ne.symm ha]
      · have hba : (b == a) = false := by simpa using hb
        simp only [modifyEntry, ha, if_false, List.lookup_cons, hba, hab, ih]

/-- A change reaches one server. -/
@[simp] theorem get_modify (c : Cluster) (addr b : String) (f : Server → Server) :
    (c.modify addr f).get b = if b = addr then f (c.get addr) else c.get b :=
  lookup_modifyEntry addr b f c.servers

/-- Opens a connection to the server a data source name gives, and names the server. -/
def connect (c : Cluster) (dsn : String) : Except DriverError String × Cluster :=
  match Dsn.address? dsn with
  | none => (.error (.noAddress dsn), c)
  | some addr =>
    if (c.get addr).refusesOpen then (.error (.refused addr), c)
    else (.ok addr, c.modify addr fun s => { s with opens := s.opens + 1 })

/-- Sets the limits of a server's connection pool. -/
def tune (c : Cluster) (addr : String) (pool : Pool) : Cluster :=
  c.modify addr fun s => { s with pool }

/-- Pings a server, which counts it whether it answers or not, and gives its refusal if it does
not. -/
def ping (c : Cluster) (addr : String) : Option DriverError × Cluster :=
  (if (c.get addr).refusesPing then some (.refused addr) else none,
    c.modify addr fun s => { s with pings := s.pings + 1 })

/-- Asks a server to begin a transaction. -/
def admitTransaction (c : Cluster) (addr : String) : Option DriverError × Cluster :=
  if (c.get addr).refusesBegin then (some (.refused addr), c)
  else (none, c.modify addr fun s => { s with begins := s.begins + 1 })

/-- Counts a commit and appends its statements. -/
def recordCommit (c : Cluster) (addr : String) (statements : List String) : Cluster :=
  c.modify addr fun s =>
    { s with commits := s.commits + 1, statements := s.statements ++ statements }

def recordRollback (c : Cluster) (addr : String) : Cluster :=
  c.modify addr fun s => { s with rollbacks := s.rollbacks + 1 }

/-- Opens the server of a data source name, sets its limits and pings it. -/
def enlist (c : Cluster) (pool : Pool) (dsn : String) : Except DriverError String × Cluster :=
  match c.connect dsn with
  | (.error e, c) => (.error e, c)
  | (.ok addr, c) =>
    match (c.tune addr pool).ping addr with
    | (some e, c) => (.error e, c)
    | (none, c) => (.ok addr, c)

end Cluster

end ReplicaRouter
