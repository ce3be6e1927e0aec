import Mathlib.Algebra.Order.Ring.Int
import ReplicaRouter.Session.Step

/-! # Books

What of a session concerns its transactions: the clock, the transactions themselves and, of each
server, the counters and the log that transactions change (`Session.books`). Whatever a driver or a
node does to a server besides beginning and finishing transactions leaves the books alone
(`Cluster.accounts_enlist`, `Node.accounts_build`, `Node.accounts_probe`), and finishing a
transaction changes one account by the effect of its ending (`Transaction.accounts_finish`).
-/

namespace ReplicaRouter

/-- What transactions change on a server. -/
structure Account where
  begins : Nat
  commits : Nat
  rollbacks : Nat
  statements : List String

namespace Account

def beginOne (a : Account) : Account := { a with begins := a.begins + 1 }

def commit (statements : List String) (a : Account) : Account :=
  { a with commits := a.commits + 1, statements := a.statements ++ statements }

def rollBack (a : Account) : Account := { a with rollbacks := a.rollbacks + 1 }

end Account

/-- What an ending does to the account of the transaction's server. -/
def Ending.effect (pending : List String) : Ending → Account → Account
  | .committed => .commit pending
  | .refused => id
  | .rolledBack => .rollBack
  | .expired => .rollBack

def Server.account (v : Server) : Account := ⟨v.begins, v.commits, v.rollbacks, v.statements⟩

/-- The accounts of all servers, by address. -/
def Cluster.accounts (c : Cluster) (addr : String) : Account := (c.get addr).account

/-- A change to the account at one address. -/
def recordAt (addr : String) (f : Account → Account) (accounts : String → Account) :
    String → Account :=
  fun a => if a = addr then f (accounts a) else accounts a

theorem recordAt_id (addr : String) (accounts : String → Account) :
    recordAt addr id accounts = accounts := by
  funext a
  simp [recordAt]

/-- What of a session concerns its transactions. -/
structure Books where
  clock : Nat
  transactions : List Transaction
  account : String → Account

def Session.books (s : Session) : Books := ⟨s.clock, s.transactions, s.cluster.accounts⟩

/-- The books of a session in which nothing has happened. -/
def Books.blank : Books := ⟨0, [], fun _ => ⟨0, 0, 0, []⟩⟩

theorem Session.books_fresh (g : Generator) (offset : Int) : (fresh g offset).books = .blank := rfl

/-! ## Servers -/

namespace Cluster

theorem accounts_modify (c : Cluster) (addr : String) {f : Server → Server}
    {g : Account → Account} (h : ∀ v, (f v).account = g v.account) :
    (c.modify addr f).accounts = recordAt addr g c.accounts := by
  funext a
  simp only [accounts, recordAt, get_modify]
  split
  · subst addr; exact h _
  · rfl

theorem accounts_modify_same (c : Cluster) (addr : String) {f : Server → Server}
    (h : ∀ v, (f v).account = v.account) : (c.modify addr f).accounts = c.accounts := by
  rw [accounts_modify c addr (g := id) h, recordAt_id]

theorem accounts_refuse (c : Cluster) (addr : String) (what : Refusal) (on : Bool) :
    (c.modify addr fun v => v.refuse on what).accounts = c.accounts :=
  c.accounts_modify_same addr fun _ => by cases what <;> rfl

theorem accounts_connect (c : Cluster) (dsn : String) :
    (c.connect dsn).2.accounts = c.accounts := by
  unfold connect
  split
  · rfl
  · split
    · rfl
    · exact c.accounts_modify_same _ fun _ => rfl

theorem accounts_tune (c : Cluster) (addr : String) (pool : Pool) :
    (c.tune addr pool).accounts = c.accounts :=
  c.accounts_modify_same addr fun _ => rfl

theorem accounts_ping (c : Cluster) (addr : String) : (c.ping addr).2.accounts = c.accounts :=
  c.accounts_modify_same addr fun _ => rfl

/-- Enlisting a server opens, tunes and pings it, and begins nothing. -/
theorem accounts_enlist (c : Cluster) (pool : Pool) (dsn : String) :
    (c.enlist pool dsn).2.accounts = c.accounts := by
  have hc := c.accounts_connect dsn
  unfold enlist
  rcases h : c.connect dsn with ⟨e | addr, c'⟩
  · rw [h] at hc; exact hc
  · rw [h] at hc
    have hp := ((c'.tune addr pool).accounts_ping addr).trans (c'.accounts_tune addr pool)
    rcases hq : (c'.tune addr pool).ping addr with ⟨_ | e, c''⟩ <;>
      rw [hq] at hp <;> simp only [hq] <;> exact hp.trans hc

/-- A server that admits a transaction counts it. -/
theorem accounts_admitTransaction (c : Cluster) (addr : String) :
    (∃ e c', c.admitTransaction addr = (some e, c') ∧ c'.accounts = c.accounts) ∨
      ∃ c', c.admitTransaction addr = (none, c') ∧
        c'.accounts = recordAt addr .beginOne c.accounts := by
  unfold admitTransaction
  split
  · exact .inl ⟨_, _, rfl, rfl⟩
  · exact .inr ⟨_, rfl, c.accounts_modify addr fun _ => rfl⟩

end Cluster

/-! ## Nodes -/

namespace Node

theorem accounts_enlistReplicas (pool : Pool) :
    ∀ (l : List Endpoint) (index : Nat) (c : Cluster),
      (enlistReplicas pool index l c).2.accounts = c.accounts
  | [], _, _ => rfl
  | e :: rest, index, c => by
    have hc := c.accounts_enlist pool e.dsn
    unfold enlistReplicas
    rcases h : c.enlist pool e.dsn with ⟨_ | server, c'⟩
    · rw [h] at hc; exact hc
    · rw [h] at hc
      have hr := accounts_enlistReplicas pool rest (index + 1) c'
      rcases hq : enlistReplicas pool (index + 1) rest c' with ⟨_ | _, c''⟩ <;>
        rw [hq] at hr <;> simp only [hq] <;> exact hr.trans hc

theorem accounts_enlistAll (s : Settings) (c : Cluster) :
    (enlistAll s c).2.accounts = c.accounts := by
  have hc := c.accounts_enlist s.pool s.master.dsn
  unfold enlistAll
  rcases h : c.enlist s.pool s.master.dsn with ⟨_ | server, c'⟩
  · rw [h] at hc; exact hc
  · rw [h] at hc
    have hr := accounts_enlistReplicas s.pool s.replicas 0 c'
    rcases hq : enlistReplicas s.pool 0 s.replicas c' with ⟨_ | _, c''⟩ <;>
      rw [hq] at hr <;> simp only [hq] <;> exact hr.trans hc

/-- Building a node begins no transaction, whether it succeeds or not. -/
theorem accounts_build (s : Settings) (now : Nat) (g : Generator) (c : Cluster) :
    (build s now g c).2.2.accounts = c.accounts := by
  have hc := accounts_enlistAll s c
  unfold build
  split
  · rfl
  · split
    · rfl
    · split
      · rename_i h; rw [h] at hc; exact hc
      · rename_i h; rw [h] at hc; exact hc

theorem accounts_pingAll :
    ∀ (l : List (String × (DriverError → RouterError))) (c : Cluster),
      (pingAll l c).2.accounts = c.accounts
  | [], _ => rfl
  | (server, _) :: rest, c =>
    (accounts_pingAll rest (c.ping server).2).trans (c.accounts_ping server)

theorem accounts_probe (n : Node) (c : Cluster) : (n.probe c).2.accounts = c.accounts :=
  accounts_pingAll n.targets c

end Node

/-! ## Transactions -/

/-- A live transaction that is finished changes its server's account by the ending's effect. -/
theorem Transaction.accounts_finish {t : Transaction} {pending : List String} {loan : Loan}
    (ht : t.phase = .live pending loan) (c : Cluster) (ending : Ending) :
    (t.finish c ending).1 = { t with phase := .finished ending } ∧
      (t.finish c ending).2.accounts = recordAt t.server (ending.effect pending) c.accounts := by
  unfold finish
  rw [ht]
  cases ending with
  | committed => exact ⟨rfl, c.accounts_modify t.server fun _ => rfl⟩
  | refused => exact ⟨rfl, (recordAt_id _ _).symm⟩
  | rolledBack => exact ⟨rfl, c.accounts_modify t.server fun _ => rfl⟩
  | expired => exact ⟨rfl, c.accounts_modify t.server fun _ => rfl⟩

end ReplicaRouter
