import ReplicaRouter.Cluster

/-! # Transactions

A transaction buffers statements until it is finished, once, by a commit, a rollback or its
deadline. Past the deadline a statement is refused and so is a commit, which finishes the
transaction all the same. Its connection can be lent: until it is given back, nobody finishes the
transaction, and a deadline that comes meanwhile waits. Of those who can wait for the connection
only the deadline is modelled; an owner calls once it is back.

* `Duration.granted` is the runtime that a node allows, more than none and at most a second.
* `Transaction.execute` adds a statement, `Transaction.commitFault?` and
  `Transaction.rollBackFault?` tell whether the owner may finish the transaction now.
* `Transaction.finish` ends a live transaction and changes its server accordingly.
* `Transaction.lend` and `Transaction.giveBack` move the connection, `Transaction.expire` is what
  the deadline does.
-/

namespace ReplicaRouter

/-- The longest a transaction begun through a node may run. -/
def maxRuntime : Duration := ⟨Duration.perSecond⟩

/-- The runtime granted for a requested one. Asking for none is asking for the longest. -/
def Duration.granted (requested : Duration) : Duration :=
  if requested.nanos = 0 ∨ maxRuntime.nanos < requested.nanos then maxRuntime else requested

theorem Duration.granted_pos (d : Duration) : 0 < d.granted.nanos := by
  unfold granted
  split
  · decide
  · omega

theorem Duration.granted_le (d : Duration) : d.granted.nanos ≤ maxRuntime.nanos := by
  unfold granted
  split
  · exact Nat.le_refl _
  · omega

/-- How a transaction was finished. -/
inductive Ending
  | committed
  /-- A commit came at or after the deadline. -/
  | refused
  | rolledBack
  | expired
deriving Repr, DecidableEq

/-- Where the connection of a live transaction is. -/
inductive Loan
  /-- With the transaction. -/
  | home
  /-- With a borrower. -/
  | lent
  /-- With a borrower, and the deadline waits for its return. -/
  | awaited
deriving Repr, DecidableEq

/-- Where a transaction stands. -/
inductive Phase
  /-- These statements wait for the commit. -/
  | live (pending : List String) (loan : Loan)
  | finished (ending : Ending)
deriving Repr, DecidableEq

/-- A transaction on the server at an address. -/
structure Transaction where
  server : String
  deadline : Deadline
  /-- Whether the deadline rolls it back: so it is for those begun through a node. -/
  expires : Bool
  /-- Whether somebody can still use it. An owner may drop it without finishing it. -/
  owned : Bool := true
  phase : Phase := .live [] .home
deriving Repr, DecidableEq

namespace Transaction

/-- Whether the transaction can still be used. -/
def isLive (t : Transaction) : Bool :=
  match t.phase with
  | .live _ _ => true
  | .finished _ => false

/-- Whether the connection is with a borrower. -/
def isLent (t : Transaction) : Bool :=
  match t.phase with
  | .live _ .home => false
  | .live _ .lent => true
  | .live _ .awaited => true
  | .finished _ => false

/-- The instant at which the deadline acts, while it has to. -/
def wake? (t : Transaction) : Option Nat :=
  match t.phase with
  | .live _ .awaited => none
  | .live _ _ => if t.expires then some t.deadline.wake else none
  | .finished _ => none

/-- The driver's refusal as the owner of the transaction sees it: a node reports it as its own
error. -/
def refusal (t : Transaction) (e : DriverError) : Fault :=
  if t.expires then .router (.driver e) else .driver e

/-- Adds a statement to those that wait. -/
def execute (t : Transaction) (now : Nat) (statement : String) : Except Fault Transaction :=
  match t.phase with
  | .finished _ => .error (.router .transactionClosed)
  | .live pending loan =>
    if t.deadline.passed now then .error (.driver .deadlineExceeded)
    else .ok { t with phase := .live (pending ++ [statement]) loan }

/-- Why a commit fails: the transaction is finished, or the clock has reached its deadline. -/
def commitFault? (t : Transaction) (now : Nat) : Option Fault :=
  match t.phase with
  | .finished _ => some (.router .transactionClosed)
  | .live _ _ => if t.deadline.passed now then some (t.refusal .deadlineExceeded) else none

/-- Why a rollback fails: the transaction is finished. -/
def rollBackFault? (t : Transaction) : Option Fault :=
  match t.phase with
  | .finished _ => some (.router .transactionClosed)
  | .live _ _ => none

/-- Ends the transaction if it is live. Its server takes the statements of a commit and counts a
rollback, and learns nothing of a refused commit. -/
def finish (t : Transaction) (c : Cluster) (ending : Ending) : Transaction × Cluster :=
  match t.phase with
  | .finished _ => (t, c)
  | .live pending _ =>
    let t := { t with phase := .finished ending }
    match ending with
    | .committed => (t, c.recordCommit t.server pending)
    | .refused => (t, c)
    | .rolledBack => (t, c.recordRollback t.server)
    | .expired => (t, c.recordRollback t.server)

def lend (t : Transaction) : Except Fault Transaction :=
  match t.phase with
  | .finished _ => .error (.router .transactionClosed)
  | .live pending _ => .ok { t with phase := .live pending .lent }

/-- What the deadline does to the transaction: it ends it, or waits for a connection that is
lent. -/
def expire (t : Transaction) (c : Cluster) : Transaction × Cluster :=
  match t.phase with
  | .live _ .home => t.finish c .expired
  | .live pending _ => ({ t with phase := .live pending .awaited }, c)
  | .finished _ => (t, c)

/-- Takes the connection back. A deadline that waits for it acts at once. -/
def giveBack (t : Transaction) (c : Cluster) : Transaction × Cluster :=
  match t.phase with
  | .live pending .lent => ({ t with phase := .live pending .home }, c)
  | .live _ .awaited => t.finish c .expired
  | .live _ .home => (t, c)
  | .finished _ => (t, c)

end Transaction

end ReplicaRouter
