import Mathlib.Data.List.Basic
import ReplicaRouter.Node
import ReplicaRouter.Proofs.Addresses

/-!
# Construction

A node is built over the servers of all its endpoints or not at all.

* `Cluster.enlist_endpoint`: what opening one endpoint does, by what its server refuses.
* `Node.enlistAll_ok` and `Node.enlistAll_stop`: what enlisting does if no server refuses, and if
  one does. In both, the servers reached are told by their list (`Cluster.Enlisted`), in which a
  server that several endpoints share stands several times.
* `Node.build_of_enlistAll`: what building makes of it.
-/

namespace ReplicaRouter

/-! ## Servers -/

/-- The server after it was opened, tuned and pinged a number of times. -/
def Server.enlisted (v : Server) (pool : Pool) (times : Nat) : Server :=
  if times = 0 then v
  else { v with opens := v.opens + times, pings := v.pings + times, pool }

@[simp] theorem Server.enlisted_zero (v : Server) (pool : Pool) : v.enlisted pool 0 = v := rfl

theorem Server.enlisted_add (v : Server) (pool : Pool) (j k : Nat) :
    (v.enlisted pool j).enlisted pool k = v.enlisted pool (j + k) := by
  unfold enlisted
  by_cases hj : j = 0
  · simp [hj]
  · by_cases hk : k = 0
    · simp [hk]
    · simp [hj, hk, Nat.add_assoc]

@[simp] theorem Server.refusesOpen_enlisted (v : Server) (pool : Pool) (times : Nat) :
    (v.enlisted pool times).refusesOpen = v.refusesOpen := by
  unfold enlisted
  split <;> rfl

@[simp] theorem Server.refusesPing_enlisted (v : Server) (pool : Pool) (times : Nat) :
    (v.enlisted pool times).refusesPing = v.refusesPing := by
  unfold enlisted
  split <;> rfl

namespace Cluster

/-- The clusters before and after the servers of a list were opened, tuned and pinged, each as often
as it stands there. -/
def Enlisted (c : Cluster) (pool : Pool) (servers : List String) (c' : Cluster) : Prop :=
  ∀ addr, c'.get addr = (c.get addr).enlisted pool (servers.count addr)

theorem Enlisted.get {c c' : Cluster} {pool : Pool} {servers : List String}
    (h : c.Enlisted pool servers c') (addr : String) :
    c'.get addr = (c.get addr).enlisted pool (servers.count addr) := h addr

theorem Enlisted.refl (c : Cluster) (pool : Pool) : c.Enlisted pool [] c := fun _ => rfl

theorem Enlisted.trans {c c' c'' : Cluster} {pool : Pool} {l l' : List String}
    (h : c.Enlisted pool l c') (h' : c'.Enlisted pool l' c'') : c.Enlisted pool (l ++ l') c'' := by
  intro addr
  rw [h' addr, h addr, Server.enlisted_add, List.count_append]

/-- The endpoint's server refuses to be opened or does not answer. -/
def refuses (c : Cluster) (e : Endpoint) : Bool :=
  (c.get e.server).refusesOpen || (c.get e.server).refusesPing

/-- The servers that an attempt at the endpoint reaches. -/
def reached (c : Cluster) (e : Endpoint) : List String :=
  if (c.get e.server).refusesOpen then [] else [e.server]

theorem reached_of_not_refuses {c : Cluster} {e : Endpoint} (h : c.refuses e = false) :
    c.reached e = [e.server] := by
  rw [refuses, Bool.or_eq_false_iff] at h
  rw [reached, h.1, if_neg Bool.false_ne_true]

/-- Servers refuse after an enlistment what they refused before. -/
theorem Enlisted.refuses {c c' : Cluster} {pool : Pool} {l : List String}
    (h : c.Enlisted pool l c') (e : Endpoint) : c'.refuses e = c.refuses e := by
  rw [Cluster.refuses, h e.server, Server.refusesOpen_enlisted, Server.refusesPing_enlisted,
    ← Cluster.refuses]

theorem Enlisted.reached {c c' : Cluster} {pool : Pool} {l : List String}
    (h : c.Enlisted pool l c') (e : Endpoint) : c'.reached e = c.reached e := by
  rw [Cluster.reached, h e.server, Server.refusesOpen_enlisted, ← Cluster.reached]

/-- An endpoint's server is opened, tuned and pinged unless it refuses to be opened. -/
theorem enlist_endpoint (c : Cluster) (pool : Pool) (e : Endpoint) :
    ∃ c', c.enlist pool e.dsn =
        (if c.refuses e then .error (.refused e.server) else .ok e.server, c') ∧
      c.Enlisted pool (c.reached e) c' := by
  unfold enlist connect reached refuses
  rw [e.address?_dsn]
  cases ho : (c.get e.server).refusesOpen with
  | true => exact ⟨c, by simp [ho], .refl c pool⟩
  | false =>
    have hget : ∀ addr, (((c.modify e.server fun s => { s with opens := s.opens + 1 }).tune
        e.server pool).ping e.server).2.get addr =
          (c.get addr).enlisted pool ([e.server].count addr) := by
      intro addr
      simp only [ping, tune, get_modify, List.count_singleton, beq_iff_eq]
      by_cases ha : addr = e.server
      · subst ha
        simp [Server.enlisted]
      · simp [ha, Ne.symm ha]
    refine ⟨_, ?_, hget⟩
    cases hp : (c.get e.server).refusesPing <;> simp [ho, hp, ping, tune]

end Cluster

/-! ## Endpoints in order -/

/-- The endpoints of the settings, the master's first. -/
def Settings.endpoints (s : Settings) : List Endpoint := s.master :: s.replicas

/-- The error that reports the server of the endpoint at a place, the master's being 0. -/
def RouterError.unreachable (e : Endpoint) : Nat → RouterError
  | 0 => .masterUnreachable e.addr (.refused e.server)
  | i + 1 => .replicaUnreachable i e.addr (.refused e.server)

/-- The replica at an endpoint. -/
def Endpoint.replica (e : Endpoint) : Replica := ⟨e.addr, e.server⟩

namespace Node

theorem enlistReplicas_ok_of (pool : Pool) :
    ∀ (l : List Endpoint) (index : Nat) {c : Cluster}, (∀ e ∈ l, c.refuses e = false) →
      ∃ c', enlistReplicas pool index l c = (.ok (l.map Endpoint.replica), c') ∧
        c.Enlisted pool (l.map Endpoint.server) c'
  | [], _, c, _ => ⟨c, rfl, .refl c pool⟩
  | e :: rest, index, c, h => by
    have he := h e (.head _)
    obtain ⟨c₁, h₁, hc₁⟩ := c.enlist_endpoint pool e
    rw [he, if_neg Bool.false_ne_true] at h₁
    rw [Cluster.reached_of_not_refuses he] at hc₁
    obtain ⟨c₂, h₂, hc₂⟩ := enlistReplicas_ok_of pool rest (index + 1) (c := c₁)
      fun e' he' => by rw [hc₁.refuses]; exact h e' (.tail _ he')
    refine ⟨c₂, ?_, hc₁.trans hc₂⟩
    simp only [enlistReplicas, h₁, h₂]
    rfl

theorem enlistReplicas_stop (pool : Pool) {e : Endpoint} (after : List Endpoint) :
    ∀ (before : List Endpoint) (index : Nat) {c : Cluster}, (∀ b ∈ before, c.refuses b = false) →
      c.refuses e = true →
      ∃ c', enlistReplicas pool index (before ++ e :: after) c =
          (.error (.unreachable e (index + before.length + 1)), c') ∧
        c.Enlisted pool (before.map Endpoint.server ++ c.reached e) c'
  | [], index, c, _, he => by
    obtain ⟨c₁, h₁, hc₁⟩ := c.enlist_endpoint pool e
    rw [he, if_pos rfl] at h₁
    refine ⟨c₁, ?_, hc₁⟩
    simp only [List.nil_append, enlistReplicas, h₁]
    rfl
  | b :: before, index, c, hb, he => by
    have hb₀ := hb b (.head _)
    obtain ⟨c₁, h₁, hc₁⟩ := c.enlist_endpoint pool b
    rw [hb₀, if_neg Bool.false_ne_true] at h₁
    rw [Cluster.reached_of_not_refuses hb₀] at hc₁
    obtain ⟨c₂, h₂, hc₂⟩ := enlistReplicas_stop pool after before (index + 1) (c := c₁)
      (fun b' hb' => by rw [hc₁.refuses]; exact hb b' (.tail _ hb')) (by rw [hc₁.refuses]; exact he)
    rw [hc₁.reached] at hc₂
    refine ⟨c₂, ?_, hc₁.trans hc₂⟩
    simp only [List.cons_append, enlistReplicas, h₁, h₂, List.length_cons]
    rw [Nat.add_right_comm index, Nat.add_assoc index]

/-- If no server refuses, all are enlisted. -/
theorem enlistAll_ok {s : Settings} {c : Cluster} (h : ∀ e ∈ s.endpoints, c.refuses e = false) :
    ∃ c', enlistAll s c = (.ok (s.master.server, s.replicas.map Endpoint.replica), c') ∧
      c.Enlisted s.pool (s.endpoints.map Endpoint.server) c' := by
  have hm := h s.master (.head _)
  obtain ⟨c₁, h₁, hc₁⟩ := c.enlist_endpoint s.pool s.master
  rw [hm, if_neg Bool.false_ne_true] at h₁
  rw [Cluster.reached_of_not_refuses hm] at hc₁
  obtain ⟨c₂, h₂, hc₂⟩ := enlistReplicas_ok_of s.pool s.replicas 0 (c := c₁)
    fun e he => by rw [hc₁.refuses]; exact h e (.tail _ he)
  refine ⟨c₂, ?_, hc₁.trans hc₂⟩
  simp only [enlistAll, h₁, h₂]

/-- If one refuses, those before the first that does are enlisted, it is reached unless it refuses
to be opened, and none after it is. -/
theorem enlistAll_stop {s : Settings} {c : Cluster} {before after : List Endpoint} {e : Endpoint}
    (hs : s.endpoints = before ++ e :: after) (hb : ∀ b ∈ before, c.refuses b = false)
    (he : c.refuses e = true) :
    ∃ c', enlistAll s c = (.error (.unreachable e before.length), c') ∧
      c.Enlisted s.pool (before.map Endpoint.server ++ c.reached e) c' := by
  obtain ⟨c₁, h₁, hc₁⟩ := c.enlist_endpoint s.pool s.master
  cases before with
  | nil =>
    obtain ⟨rfl, -⟩ := List.cons.inj hs
    rw [he, if_pos rfl] at h₁
    refine ⟨c₁, ?_, hc₁⟩
    simp only [enlistAll, h₁]
    rfl
  | cons b before =>
    rw [List.cons_append] at hs
    obtain ⟨rfl, hr⟩ := List.cons.inj hs
    have hm := hb s.master (.head _)
    rw [hm, if_neg Bool.false_ne_true] at h₁
    rw [Cluster.reached_of_not_refuses hm] at hc₁
    obtain ⟨c₂, h₂, hc₂⟩ := enlistReplicas_stop s.pool after before 0 (c := c₁)
      (fun b hb' => by rw [hc₁.refuses]; exact hb b (.tail _ hb')) (by rw [hc₁.refuses]; exact he)
    rw [hc₁.reached] at hc₂
    refine ⟨c₂, ?_, hc₁.trans hc₂⟩
    simp only [enlistAll, h₁]
    rw [hr, h₂, Nat.zero_add]
    rfl

/-! ## Building -/

section
variable {s : Settings} {now : Nat} {g : Generator} {c : Cluster}

theorem build_of_invalid {err : RouterError} (hv : s.validate = .error err) :
    build s now g c = (.error err, g, c) := by
  unfold build
  split
  · rename_i h
    rw [Except.error.inj (hv.symm.trans h)]
  · rename_i h
    cases hv.symm.trans h

theorem build_of_badRule {err : RouterError} (hv : s.validate = .ok ())
    (hp : Plan.ofRules s.rules = .error err) : build s now g c = (.error err, g, c) := by
  unfold build
  split
  · rename_i h
    cases hv.symm.trans h
  · rw [hp]

/-- A node that was built probes at the period of its settings, counting from when it was built. -/
theorem schedule_of_build {n : Node} {g' : Generator} {c' : Cluster}
    (h : build s now g c = (.ok n, g', c')) :
    n.closed = false ∧ n.period = s.checkPeriod ∧ n.nextProbe = now + s.checkPeriod.nanos := by
  unfold build at h
  split at h
  · cases h
  split at h
  · cases h
  split at h
  · cases h
  · obtain rfl := Except.ok.inj (Prod.mk.inj h).1
    exact ⟨rfl, rfl, rfl⟩

/-- Valid settings with a plan: whether a node comes out, and what it costs, is up to the
servers. -/
theorem build_of_enlistAll {plan : Plan} (hv : s.validate = .ok ())
    (hp : Plan.ofRules s.rules = .ok plan) {c' : Cluster} :
    (∀ err, enlistAll s c = (.error err, c') → build s now g c = (.error err, g, c')) ∧
      ∀ servers, enlistAll s c = (.ok servers, c') →
        ∃ n, build s now g c = (.ok n, g.fork.2, c') := by
  refine ⟨fun err he => ?_, fun servers he => ?_⟩
  · unfold build
    split
    · rename_i h
      cases hv.symm.trans h
    · rw [hp, he]
  · unfold build
    split
    · rename_i h
      cases hv.symm.trans h
    · rw [hp, he]
      exact ⟨_, rfl⟩

end

end Node

end ReplicaRouter
