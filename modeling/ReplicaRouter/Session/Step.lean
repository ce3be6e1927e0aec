import ReplicaRouter.Session.Background
import ReplicaRouter.Settings.Codec

/-! # Steps

The steps of a session and their answers. A run is a list of steps taken in order
(`Session.step`, `Session.run`), and each is over before the next begins: no call waits for another
(`Session.onOwner`).
-/

namespace ReplicaRouter

/-- What a session can be asked to do. Servers are named by address, transactions by place. -/
inductive Step
  /-- Let a time pass, and what happens in it. -/
  | sleep (time : Duration)
  /-- Move the clock alone. -/
  | jump (time : Duration)
  /-- Let what is due happen. -/
  | settle
  /-- Let one event happen, if it is due, and leave the others waiting. -/
  | happen (e : Event)
  | refuse (server : String) (what : Refusal) (on : Bool)
  | inspect (server : String)
  | connect (dsn : String)
  | ping (server : String)
  | tune (server : String) (pool : Pool)
  /-- Begin a transaction on a server, past any node. Nothing but its owner finishes it. -/
  | beginOn (server : String) (runtime : Duration)
  /-- Drop the node and build one from the text of its settings. -/
  | build (settings : String)
  | drop
  | close
  | isClosed
  | settings
  | queue
  | master
  | replica
  | replicas (count : Nat)
  | tableName (table : TableName) (keys : List Key)
  | strategy (table : TableName)
  | check
  | takeFailures
  /-- Begin a transaction through the node. -/
  | beginThrough (requested : Duration)
  | left (id : Nat)
  | isLive (id : Nat)
  /-- Execute a statement over the transaction's connection, whoever has it. -/
  | execute (id : Nat) (statement : String)
  | lend (id : Nat)
  | giveBack (id : Nat)
  /-- Borrow a transaction's connection, execute a statement, let a time pass, execute another, give
  the connection back and let what is due happen. -/
  | hold (id : Nat) (before : String) (time : Duration) (after : String)
  | commit (id : Nat)
  | rollBack (id : Nat)
  /-- Drop a transaction without finishing it. -/
  | disown (id : Nat)
deriving Repr, DecidableEq

/-- Results are compared by what they hold. -/
instance decidableEqExcept {ε α : Type} [DecidableEq ε] [DecidableEq α] : DecidableEq (Except ε α)
  | .error e, .error e' => decidable_of_iff (e = e') ⟨congrArg _, Except.error.inj⟩
  | .ok a, .ok a' => decidable_of_iff (a = a') ⟨congrArg _, Except.ok.inj⟩
  | .error _, .ok _ => isFalse nofun
  | .ok _, .error _ => isFalse nofun

/-- What a step answers. -/
inductive Answer
  /-- There is nothing to report. -/
  | nothing
  | done
  | failed (why : Fault)
  | server (addr : String)
  | servers (picks : List (Except RouterError String))
  | state (addr : String) (server : Server)
  | built (weights queue : List Nat)
  | begun (left : Int)
  | left (nanos : Int)
  | flag (b : Bool)
  | count (n : Nat)
  | queue (places : List Nat)
  | settings (s : Settings)
  | tableName (name : String)
  | strategy (s : Option Strategy)
  | failures (errors : List RouterError)
  | held (before after : Option Fault)
deriving Repr, DecidableEq

namespace Session

/-! ## Nodes -/

def dropNode (s : Session) : Session := { s with node := none }

/-- Drops the node and builds one from the text of its settings. -/
def build (s : Session) (text : String) : Answer × Session :=
  let s := s.dropNode
  match Settings.decode? text with
  | none => (.failed (.router .undecodable), s)
  | some settings =>
    match Node.build settings s.clock s.generator s.cluster with
    | (.error err, generator, cluster) =>
      (.failed (.router err), { s with generator, cluster })
    | (.ok n, generator, cluster) =>
      (.built settings.weights n.rotation.queue, { s with generator, cluster, node := some n })

def pick (s : Session) (n : Node) : Except RouterError String × Session :=
  match n.replica? with
  | .error err => (.error err, s)
  | .ok (server, n) => (.ok server, { s with node := some n })

/-- The next replicas of the session's node, one after another. -/
def picks : Nat → Session → List (Except RouterError String) × Session
  | 0, s => ([], s)
  | count + 1, s =>
    match s.node with
    | none => ([], s)
    | some n =>
      let (p, s) := s.pick n
      let (ps, s) := picks count s
      (p :: ps, s)

/-! ## Transactions -/

def beginOn (s : Session) (server : String) (runtime : Duration) (expires : Bool) :
    Option DriverError × Session :=
  match s.cluster.admitTransaction server with
  | (some e, cluster) => (some e, { s with cluster })
  | (none, cluster) =>
    let t : Transaction := { server, deadline := .after s.clock runtime, expires }
    (none, { s with cluster, transactions := s.transactions ++ [t] })

/-- Begins a transaction on the node's master. -/
def beginThrough (s : Session) (n : Node) (requested : Duration) : Answer × Session :=
  match n.master? with
  | .error err => (.failed (.router err), s)
  | .ok server =>
    match s.beginOn server requested.granted true with
    | (some e, s) => (.failed (.router (.driver e)), s)
    | (none, s) => (.begun requested.granted.nanos, s)

def execute (s : Session) (id : Nat) (t : Transaction) (statement : String) :
    Option Fault × Session :=
  match t.execute s.clock statement with
  | .error why => (some why, s)
  | .ok t => (none, s.put id t)

/-- Executes a statement on whatever transaction is at a place now. -/
def executeAt (s : Session) (id : Nat) (statement : String) : Option Fault × Session :=
  match s.transactions[id]? with
  | none => (none, s)
  | some t => s.execute id t statement

def lend (s : Session) (id : Nat) (t : Transaction) : Option Fault × Session :=
  match t.lend with
  | .error why => (some why, s)
  | .ok t => (none, s.put id t)

def giveBack (s : Session) (id : Nat) : Session := s.change id Transaction.giveBack

/-- Holds a transaction's connection while a time passes. -/
def hold (s : Session) (id : Nat) (t : Transaction) (before : String) (time : Duration)
    (after : String) : Answer × Session :=
  match s.lend id t with
  | (some why, s) => (.failed why, s)
  | (none, s) =>
    let (first, s) := s.executeAt id before
    let s := s.sleep time
    let (second, s) := s.executeAt id after
    (.held first second, (s.giveBack id).settle)

/-- Commits the transaction at a place. It is finished in either case. -/
def commit (s : Session) (id : Nat) (t : Transaction) : Answer × Session :=
  match t.commitFault? s.clock with
  | some why => (.failed why, s.finish id .refused)
  | none => (.done, s.finish id .committed)

/-- Rolls the transaction at a place back, whatever the clock says. -/
def rollBack (s : Session) (id : Nat) (t : Transaction) : Answer × Session :=
  match t.rollBackFault? with
  | some why => (.failed why, s)
  | none => (.done, s.finish id .rolledBack)

/-! ## Steps -/

/-- What a refusal, or none, answers. -/
def outcome : Option Fault → Answer
  | none => .done
  | some why => .failed why

/-- A step on the session's node. Without one there is nothing to report. -/
def onNode (s : Session) (f : Node → Answer × Session) : Answer × Session :=
  match s.node with
  | none => (.nothing, s)
  | some n => f n

/-- A step on the transaction at a place. Without one, or once its owner has dropped it, there is
nothing to report. -/
def onTransaction (s : Session) (id : Nat) (f : Transaction → Answer × Session) :
    Answer × Session :=
  match s.transactions[id]? with
  | none => (.nothing, s)
  | some t => if t.owned then f t else (.nothing, s)

/-- A step of a transaction's owner. While the connection is lent the owner would wait for it; no
queue of waiting callers is modelled, so the step reports nothing and changes nothing. A call that
was made to wait is one taken after the connection is given back. -/
def onOwner (s : Session) (id : Nat) (f : Transaction → Answer × Session) : Answer × Session :=
  s.onTransaction id fun t => if t.isLent then (.nothing, s) else f t

def step (s : Session) : Step → Answer × Session
  | .sleep time => (.nothing, s.sleep time)
  | .jump time => (.nothing, s.jump time)
  | .settle => (.nothing, s.settle)
  | .happen e => (.nothing, s.happen e)
  | .refuse server what on =>
    (.nothing, { s with cluster := s.cluster.modify server fun v => v.refuse on what })
  | .inspect server => (.state server (s.cluster.get server), s)
  | .connect dsn =>
    match s.cluster.connect dsn with
    | (.error e, cluster) => (.failed (.driver e), { s with cluster })
    | (.ok server, cluster) => (.server server, { s with cluster })
  | .ping server =>
    let (refusal, cluster) := s.cluster.ping server
    (outcome (refusal.map .driver), { s with cluster })
  | .tune server pool => (.nothing, { s with cluster := s.cluster.tune server pool })
  | .beginOn server runtime =>
    match s.beginOn server runtime false with
    | (some e, s) => (.failed (.driver e), s)
    | (none, s) => (.begun runtime.nanos, s)
  | .build text => s.build text
  | .drop => (.nothing, s.dropNode)
  | .close => s.onNode fun n => (.nothing, { s with node := some n.close })
  | .isClosed => s.onNode fun n => (.flag n.closed, s)
  | .settings => s.onNode fun n => (.settings n.settings, s)
  | .queue => s.onNode fun n => (.queue n.rotation.queue, s)
  | .master => s.onNode fun n =>
    match n.master? with
    | .error err => (.failed (.router err), s)
    | .ok server => (.server server, s)
  | .replica => s.onNode fun n =>
    match s.pick n with
    | (.error err, s) => (.failed (.router err), s)
    | (.ok server, s) => (.server server, s)
  | .replicas count =>
    let (picks, s) := picks count s
    (.servers picks, s)
  | .tableName table keys => s.onNode fun n =>
    match n.plan.tableName s.offset table keys with
    | .error err => (.failed (.lookup err), s)
    | .ok name => (.tableName name, s)
  | .strategy table => s.onNode fun n => (.strategy (n.plan.find? table), s)
  | .check => s.onNode fun n =>
    let (refusals, s) := s.probe n
    (.count refusals, s)
  | .takeFailures => (.failures s.failures, { s with failures := [] })
  | .beginThrough requested => s.onNode fun n => s.beginThrough n requested
  | .left id => s.onTransaction id fun t => (.left (t.deadline.left s.clock), s)
  | .isLive id => s.onOwner id fun t => (.flag t.isLive, s)
  | .execute id statement => s.onTransaction id fun t =>
    let (refusal, s) := s.execute id t statement
    (outcome refusal, s)
  | .lend id => s.onOwner id fun t =>
    let (refusal, s) := s.lend id t
    (outcome refusal, s)
  | .giveBack id => s.onTransaction id fun _ => (.nothing, s.giveBack id)
  | .hold id before time after => s.onOwner id fun t => s.hold id t before time after
  | .commit id => s.onOwner id fun t => s.commit id t
  | .rollBack id => s.onOwner id fun t => s.rollBack id t
  | .disown id => s.onOwner id fun t => (.nothing, s.put id { t with owned := false })

def run : Session → List Step → List Answer × Session
  | s, [] => ([], s)
  | s, step :: rest =>
    let (answer, s) := s.step step
    let (answers, s) := s.run rest
    (answer :: answers, s)

end Session

end ReplicaRouter
