import ReplicaRouter.Proofs.Session.Holds

/-! # Premises

Beside its books a session has the node, the failures reported and, of each server, what
transactions leave alone (`Session.premises`). Of these, probes touch the schedule of the node, the
pings of servers and the failures; the rest is the outline (`Session.outline`).

* `Session.premises_step`: a call on a transaction leaves the premises alone.
* `Session.outline_step`: only steps aside can change the outline.
-/

namespace ReplicaRouter

/-- The server without what transactions change. -/
def Server.front (v : Server) : Server :=
  { v with begins := 0, commits := 0, rollbacks := 0, statements := [] }

/-- The server without its pings, counted or refused. -/
def Server.unpinged (v : Server) : Server := { v with refusesPing := false, pings := 0 }

/-- The node without its next probe. -/
def Node.unscheduled (n : Node) : Node := { n with nextProbe := 0 }

/-- What of a session transactions leave alone. -/
structure Premises where
  clock : Nat
  offset : Int
  generator : Generator
  node : Option Node
  failures : List RouterError
  front : String → Server

def Session.premises (s : Session) : Premises :=
  { clock := s.clock, offset := s.offset, generator := s.generator, node := s.node
    failures := s.failures, front := fun addr => (s.cluster.get addr).front }

/-- What of a session transactions, probes and the clock leave alone. -/
structure Outline where
  offset : Int
  generator : Generator
  node : Option Node
  front : String → Server

def Premises.outline (p : Premises) : Outline :=
  { offset := p.offset, generator := p.generator, node := p.node.map Node.unscheduled
    front := fun addr => (p.front addr).unpinged }

def Session.outline (s : Session) : Outline := s.premises.outline

/-! ## Servers -/

namespace Cluster

/-- What a change of one server keeps of any server, it keeps of all. -/
theorem get_modify_keeps {α : Type} (g : Server → α) (c : Cluster) (addr a : String)
    {f : Server → Server} (h : ∀ v, g (f v) = g v) : g ((c.modify addr f).get a) = g (c.get a) := by
  rw [get_modify]
  split
  · rename_i ha
    rw [h, ha]
  · rfl

theorem front_admitTransaction (c : Cluster) (addr a : String) :
    ((c.admitTransaction addr).2.get a).front = (c.get a).front := by
  unfold admitTransaction
  split
  · rfl
  · exact c.get_modify_keeps Server.front addr a fun _ => rfl

theorem unpinged_ping (c : Cluster) (addr a : String) :
    ((c.ping addr).2.get a).unpinged = (c.get a).unpinged :=
  c.get_modify_keeps Server.unpinged addr a fun _ => rfl

theorem unpinged_pingAll :
    ∀ (l : List (String × (DriverError → RouterError))) (c : Cluster) (a : String),
      ((Node.pingAll l c).2.get a).unpinged = (c.get a).unpinged
  | [], _, _ => rfl
  | (server, _) :: rest, c, a =>
    (unpinged_pingAll rest (c.ping server).2 a).trans (c.unpinged_ping server a)

end Cluster

namespace Transaction

theorem front_finish (t : Transaction) (c : Cluster) (ending : Ending) (a : String) :
    ((t.finish c ending).2.get a).front = (c.get a).front := by
  unfold finish
  split
  · rfl
  · cases ending with
    | committed => exact c.get_modify_keeps Server.front t.server a fun _ => rfl
    | refused => rfl
    | rolledBack => exact c.get_modify_keeps Server.front t.server a fun _ => rfl
    | expired => exact c.get_modify_keeps Server.front t.server a fun _ => rfl

theorem front_expire (t : Transaction) (c : Cluster) (a : String) :
    ((t.expire c).2.get a).front = (c.get a).front := by
  unfold expire
  split
  · exact t.front_finish c .expired a
  · rfl
  · rfl

theorem front_giveBack (t : Transaction) (c : Cluster) (a : String) :
    ((t.giveBack c).2.get a).front = (c.get a).front := by
  unfold giveBack
  split
  · rfl
  · exact t.front_finish c .expired a
  · rfl
  · rfl

end Transaction

namespace Session

/-! ## Calls on transactions -/

theorem premises_change (s : Session) (id : Nat)
    {f : Transaction → Cluster → Transaction × Cluster}
    (hf : ∀ t c a, ((f t c).2.get a).front = (c.get a).front) :
    (s.change id f).premises = s.premises := by
  unfold change
  split
  · rfl
  · simp only [premises, put, hf]

theorem premises_beginOn (s : Session) (server : String) (runtime : Duration) (expires : Bool) :
    (s.beginOn server runtime expires).2.premises = s.premises := by
  have h := s.cluster.front_admitTransaction server
  unfold beginOn
  split <;> rename_i hb <;> rw [hb] at h <;> simp only [premises, h]

theorem premises_onTransaction {s : Session} {id : Nat} {f : Transaction → Answer × Session}
    (h : ∀ t, (f t).2.premises = s.premises) :
    (s.onTransaction id f).2.premises = s.premises := by
  rcases s.onTransaction_eq id f with hf | ⟨t, -, -, hf⟩
  · rw [hf]
  · rw [hf]; exact h t

theorem premises_onOwner {s : Session} {id : Nat} {f : Transaction → Answer × Session}
    (h : ∀ t, (f t).2.premises = s.premises) : (s.onOwner id f).2.premises = s.premises := by
  rcases s.onOwner_eq id f with hf | ⟨t, -, -, -, hf⟩
  · rw [hf]
  · rw [hf]; exact h t

end Session

/-- A call that begins a transaction or concerns one, and lets no time pass. -/
def Step.isCall : Step → Bool
  | .beginOn _ _ => true
  | .beginThrough _ => true
  | .execute _ _ => true
  | .lend _ => true
  | .giveBack _ => true
  | .commit _ => true
  | .rollBack _ => true
  | .disown _ => true
  | _ => false

namespace Session

/-- A call on a transaction leaves the premises alone. -/
theorem premises_step (s : Session) {step : Step} (h : step.isCall = true) :
    (s.step step).2.premises = s.premises := by
  cases step with
  | beginOn server runtime =>
    have hb := s.premises_beginOn server runtime false
    simp only [Session.step]
    split <;> rename_i hs <;> rw [hs] at hb <;> exact hb
  | beginThrough requested =>
    simp only [Session.step, onNode]
    split
    · rfl
    unfold beginThrough
    split
    · rfl
    · rename_i server _
      have hb := s.premises_beginOn server requested.granted true
      split <;> rename_i hs <;> rw [hs] at hb <;> exact hb
  | execute id statement =>
    refine premises_onTransaction fun t => ?_
    show (s.execute id t statement).2.premises = s.premises
    unfold execute
    split <;> rfl
  | lend id =>
    refine premises_onOwner fun t => ?_
    show (s.lend id t).2.premises = s.premises
    unfold lend
    split <;> rfl
  | giveBack id =>
    exact premises_onTransaction fun _ => s.premises_change id Transaction.front_giveBack
  | commit id =>
    refine premises_onOwner fun t => ?_
    unfold commit
    split <;> exact s.premises_change id fun t c a => t.front_finish c _ a
  | rollBack id =>
    refine premises_onOwner fun t => ?_
    unfold rollBack
    split
    · rfl
    · exact s.premises_change id fun t c a => t.front_finish c _ a
  | disown id => exact premises_onOwner fun _ => rfl
  | _ => cases h

/-! ## The clock -/

theorem outline_probe (s : Session) (n : Node) : (s.probe n).2.outline = s.outline := by
  have h := fun a => Cluster.unpinged_pingAll n.targets s.cluster a
  have hf : ∀ v w : Server, v.unpinged = w.unpinged → v.front.unpinged = w.front.unpinged := by
    intro v w hvw
    simp only [Server.unpinged, Server.front, Server.mk.injEq] at hvw ⊢
    simp [hvw]
  simp only [outline, premises, Premises.outline, probe, Node.probe, hf _ _ (h _)]

theorem outline_handle (s : Session) (e : Event) : (s.handle e).outline = s.outline := by
  cases e with
  | probe =>
    simp only [handle]
    split
    · rfl
    · rename_i n hn
      have h := s.outline_probe n
      simp only [outline, premises, Premises.outline, Outline.mk.injEq, hn] at h ⊢
      exact ⟨h.1, h.2.1, rfl, h.2.2.2⟩
  | expire id =>
    exact congrArg Premises.outline (s.premises_change id Transaction.front_expire)

theorem outline_fireUpTo (limit : Nat) :
    ∀ (k : Nat) (s : Session), (fireUpTo limit k s).outline = s.outline
  | 0, _ => rfl
  | k + 1, s => by
    simp only [fireUpTo]
    split
    · rfl
    · rw [outline_fireUpTo limit k, fire, outline_handle]
      rfl

theorem outline_sleep (s : Session) (time : Duration) : (s.sleep time).outline = s.outline :=
  outline_fireUpTo _ _ s

/-- A round that is asked to happen does if it is due. -/
theorem happen_probe (s : Session) :
    s.happen .probe = if s.nextProbe?.any (· ≤ s.clock) then s.handle .probe else s := by
  obtain ⟨due, hd, hm, h⟩ | ⟨hlate, h⟩ := s.happen_cases .probe
  · rw [h, mem_events_probe.1 hm, Option.any_some, if_pos (decide_eq_true hd)]
  · rw [h, if_neg]
    intro hany
    obtain ⟨due, hd, hle⟩ := (Option.any_eq_true _ _).1 hany
    exact Nat.not_le_of_lt (hlate due (mem_events_probe.2 hd)) (of_decide_eq_true hle)

theorem books_handle_probe (s : Session) : (s.handle .probe).books = s.books := by
  simp only [handle]
  split
  · rfl
  · exact s.books_probe _

/-- Whatever does not stand aside leaves the outline alone. -/
theorem outline_step (s : Session) {step : Step} (h : step.isAside = false) :
    (s.step step).2.outline = s.outline := by
  have simple : ∀ (s : Session) {step : Step}, step.isAside = false ∧ step.isHold = false →
      (s.step step).2.outline = s.outline := by
    intro s step ⟨ha, hh⟩
    by_cases hc : step.isCall = true
    · exact congrArg Premises.outline (s.premises_step hc)
    cases step with
    | sleep time => exact s.outline_sleep time
    | jump => rfl
    | settle => exact s.outline_sleep ⟨0⟩
    | happen e =>
      show (s.happen e).outline = s.outline
      obtain ⟨_, -, -, h⟩ | ⟨-, h⟩ := s.happen_cases e <;> rw [h]
      exact s.outline_handle e
    | hold => cases hh
    | beginOn | beginThrough | execute | lend | giveBack | commit | rollBack | disown =>
      exact absurd rfl hc
    | _ => cases ha
  cases step with
  | hold id before time after =>
    refine hold_keeps (P := fun s' => s'.outline = s.outline) rfl ?_
    refine run_keeps (P := fun s' => s'.outline = s.outline)
      (fun s' step hp hs => (simple s' hp).trans hs) _ ?_ rfl
    exact Step.forall_partsOfHold ⟨rfl, rfl⟩ (fun _ => ⟨rfl, rfl⟩) ⟨rfl, rfl⟩ ⟨rfl, rfl⟩ ⟨rfl, rfl⟩
  | _ => exact simple s ⟨h, rfl⟩

end Session

/-! ## The node -/

/-- The step ends the node, whatever it does afterwards. -/
def Step.endsNode : Step → Bool
  | .build _ => true
  | .drop => true
  | .close => true
  | _ => false

/-- The calls for a replica that a step makes. -/
def Step.reads : Step → Nat
  | .replica => 1
  | .replicas count => count
  | _ => 0

/-- The node without the place of its rotation. -/
def Node.unturned (n : Node) : Node := { n with rotation := { n.rotation with cursor := 0 } }

/-- The node without what requests and probes change of it. -/
def Node.steady (n : Node) : Node := n.unturned.unscheduled

theorem Rotation.queue_next? {r r' : Rotation} {i : Nat} (h : r.next? = some (i, r')) :
    r'.queue = r.queue := by
  unfold next? at h
  split at h
  · cases h
  · cases h
    rfl
  · obtain ⟨_, -, heq⟩ := Option.map_eq_some_iff.1 h
    cases heq
    rfl

theorem Node.unturned_replica? {n n' : Node} {server : String}
    (h : n.replica? = .ok (server, n')) : n'.unturned = n.unturned := by
  unfold replica? at h
  split at h
  · cases h
  split at h
  · cases h
  rename_i hnext
  split at h
  · cases h
  · cases h
    simp only [unturned, Rotation.queue_next? hnext]

namespace Session

/-- The node, if there is one, without what requests and probes change of it. -/
def steady? (s : Session) : Option Node := s.node.map Node.steady

theorem steady?_of_outline {s s' : Session} (h : s'.outline = s.outline) :
    s'.steady? = s.steady? := by
  have key : ∀ s : Session, s.steady? = s.outline.node.map Node.steady := by
    intro s
    unfold steady? outline premises Premises.outline
    rcases s.node with _ | n <;> rfl
  rw [key, key, h]

/-- Of the steps aside only calls for a replica change a node that stands. -/
theorem node_step_of_isAside (s : Session) {step : Step} (h : step.isAside = true)
    (he : step.endsNode = false) (hr : step.reads = 0) : (s.step step).2.node = s.node := by
  by_cases hl : step.isLook = true
  · rw [s.step_of_isLook hl]
  cases step with
  | connect dsn => rw [step_connect]
  | check => exact onNode_keeps Session.node fun _ => rfl
  | replicas count =>
    obtain rfl : count = 0 := hr
    rfl
  | replica => cases hr
  | build | drop | close => cases he
  | refuse | ping | tune | takeFailures => rfl
  | inspect | isClosed | settings | queue | master | tableName | strategy | left | isLive =>
    exact absurd rfl hl
  | _ => cases h

/-- A call for a replica moves the rotation on, and nothing else. -/
theorem unturned_picks : ∀ (count : Nat) (s : Session),
    (picks count s).2.node.map Node.unturned = s.node.map Node.unturned
  | 0, _ => rfl
  | count + 1, s => by
    unfold picks
    split
    · rfl
    rename_i n hn
    show (picks count (s.pick n).2).2.node.map Node.unturned = _
    rw [unturned_picks count]
    unfold pick
    split
    · rfl
    · rename_i server n' hp
      simp only [hn, Option.map_some, Node.unturned_replica? hp]

/-- Steps aside turn the rotation of a node that stands, if they change it at all. -/
theorem unturned_step_of_isAside (s : Session) {step : Step} (h : step.isAside = true)
    (he : step.endsNode = false) :
    (s.step step).2.node.map Node.unturned = s.node.map Node.unturned := by
  by_cases hr : step.reads = 0
  · rw [s.node_step_of_isAside h he hr]
  cases step with
  | replica => rw [step_replica, unturned_picks]
  | replicas count => exact unturned_picks count s
  | _ => exact absurd rfl hr

/-- A node that stands changes in the place of its rotation and its next probe alone. -/
theorem steady?_step (s : Session) {step : Step} (he : step.endsNode = false) :
    (s.step step).2.steady? = s.steady? := by
  cases ha : step.isAside with
  | false => exact steady?_of_outline (s.outline_step ha)
  | true =>
    have h := congrArg (Option.map Node.unscheduled) (s.unturned_step_of_isAside ha he)
    rwa [Option.map_map, Option.map_map] at h

end Session

end ReplicaRouter
