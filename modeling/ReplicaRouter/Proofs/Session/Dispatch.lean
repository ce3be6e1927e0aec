import ReplicaRouter.Proofs.Rotation
import ReplicaRouter.Proofs.Session.Premises

/-!
# Dispatch of reads

What of a session answers the calls for a replica is its node's `Dispatcher`. A node that was built
has the replicas of its settings in their order (`Node.build_ok`). No step but those calls touches
its dispatcher as long as the node stands (`dispatcher?_step`), and after `j` calls the next one is
answered by the replica at `j` modulo the queue's length (`step_after`, `dispatch_run`).
-/

namespace ReplicaRouter

/-! ## Built nodes -/

theorem Settings.weight_pos {s : Settings} (h : s.validate = .ok ()) {w : Nat}
    (hw : w ∈ s.weights) : 0 < w := by
  obtain ⟨e, he, rfl⟩ := List.mem_map.1 hw
  obtain ⟨i, hi⟩ := List.mem_iff_getElem?.1 he
  unfold validate at h
  split at h
  · cases h
  · split at h
    · cases h
    · rename_i hnone
      have hfault := List.findSome?_eq_none_iff.1 hnone (e, i) (List.mem_zipIdx_iff_getElem?.2 hi)
      simp only [replicaFault?] at hfault
      split at hfault
      · cases hfault
      · split at hfault
        · cases hfault
        · rename_i h0
          exact Nat.pos_of_ne_zero fun h => h0 (UInt32.toNat_inj.1 h)

theorem Cluster.address?_of_enlist {c c' : Cluster} {pool : Pool} {dsn server : String}
    (h : c.enlist pool dsn = (.ok server, c')) : Dsn.address? dsn = some server := by
  unfold enlist connect at h
  rcases ha : Dsn.address? dsn with _ | addr
  · simp [ha] at h
  · by_cases hr : (c.get addr).refusesOpen = true
    · simp [ha, hr] at h
    · simp only [ha, hr] at h
      simp only [Bool.false_eq_true, if_false] at h
      split at h
      · cases h
      · cases h; rfl

/-- `r` is what was opened for `e`. -/
def Replica.OpenedFor (e : Endpoint) (r : Replica) : Prop :=
  r.addr = e.addr ∧ Dsn.address? e.dsn = some r.server

theorem Replica.openedFor_at {l : List Endpoint} {replicas : List Replica}
    (h : List.Forall₂ OpenedFor l replicas) {i : Nat} (hi : i < replicas.length) :
    ∃ e r, l[i]? = some e ∧ replicas[i]? = some r ∧ OpenedFor e r := by
  induction h generalizing i with
  | nil => simp at hi
  | @cons e r rest others her _ ih =>
    cases i with
    | zero => exact ⟨e, r, rfl, rfl, her⟩
    | succ i => exact ih (by simpa using hi)

namespace Node

theorem enlistReplicas_ok {pool : Pool} :
    ∀ {l : List Endpoint} {index : Nat} {c c' : Cluster} {replicas : List Replica},
      enlistReplicas pool index l c = (.ok replicas, c') →
        List.Forall₂ Replica.OpenedFor l replicas
  | [], _, _, _, _, h => by
    cases h
    exact .nil
  | e :: rest, index, c, c', replicas, h => by
    unfold enlistReplicas at h
    rcases he : c.enlist pool e.dsn with ⟨_ | server, c₁⟩
    · rw [he] at h; cases h
    · simp only [he] at h
      rcases hr : enlistReplicas pool (index + 1) rest c₁ with ⟨_ | others, c₂⟩
      · rw [hr] at h; cases h
      · rw [hr] at h
        cases h
        exact .cons ⟨rfl, Cluster.address?_of_enlist he⟩ (enlistReplicas_ok hr)

/-- A node is built from valid settings whose rules make a plan, over the replicas in their order
and with the rotation of their weights. -/
theorem build_ok {s : Settings} {now : Nat} {g g' : Generator} {c c' : Cluster} {n : Node}
    (h : build s now g c = (.ok n, g', c')) :
    s.validate = .ok () ∧ Plan.ofRules s.rules = .ok n.plan ∧ n.closed = false ∧
      List.Forall₂ Replica.OpenedFor s.replicas n.replicas ∧
      n.rotation = (Rotation.ofWeights s.weights g.fork.1).1 := by
  unfold build at h
  split at h
  · cases h
  rename_i hv
  split at h
  · cases h
  rename_i plan hp
  rcases he : enlistAll s c with ⟨_ | ⟨master, replicas⟩, c₁⟩
  · rw [he] at h; cases h
  have hreplicas : List.Forall₂ Replica.OpenedFor s.replicas replicas := by
    unfold enlistAll at he
    split at he
    · cases he
    · split at he
      · cases he
      · rename_i hl
        cases he
        exact enlistReplicas_ok hl
  rcases hf : g.fork with ⟨forked, g₁⟩
  rcases hw : Rotation.ofWeights s.weights forked with ⟨rotation, g₂⟩
  simp only [he, hf, hw] at h
  cases h
  exact ⟨hv, hp, rfl, hreplicas, rfl⟩

end Node

/-! ## Dispatchers -/

/-- What of a node answers the calls for a replica. -/
structure Dispatcher where
  closed : Bool
  replicas : List Replica
  rotation : Rotation

def Node.dispatcher (n : Node) : Dispatcher := ⟨n.closed, n.replicas, n.rotation⟩

/-- The dispatcher of an open node after `j` calls. -/
def Dispatcher.after (replicas : List Replica) (queue : List Nat) (j : Nat) : Dispatcher :=
  ⟨false, replicas, ⟨queue, j % queue.length⟩⟩

/-- The answer to the call after `j` others. -/
def turn (replicas : List Replica) (queue : List Nat) (j : Nat) : Except RouterError String :=
  match queue[j % queue.length]?.bind (replicas[·]?) with
  | none => .error .noReplica
  | some r => .ok r.server

/-- What a step's answer tells of its calls for a replica. -/
def Step.picks : Step → Answer → List (Except RouterError String)
  | .replica, .server addr => [.ok addr]
  | .replica, .failed (.router err) => [.error err]
  | .replicas _, .servers picks => picks
  | _, _ => []

namespace Session

/-- The answers of a run to the calls for a replica, in order. -/
def picked : Session → List Step → List (Except RouterError String)
  | _, [] => []
  | s, step :: rest =>
    let (answer, s') := s.step step
    step.picks answer ++ s'.picked rest

def dispatcher? (s : Session) : Option Dispatcher := s.node.map Node.dispatcher

/-! ## Steps that leave the dispatcher alone -/

theorem dispatcher?_of_outline {s s' : Session} (h : s'.outline = s.outline) :
    s'.dispatcher? = s.dispatcher? := by
  have key : ∀ s : Session, s.dispatcher? = s.outline.node.map Node.dispatcher := by
    intro s
    unfold dispatcher? outline premises Premises.outline
    rcases s.node with _ | n <;> rfl
  rw [key, key, h]

/-- Whatever is no call for a replica leaves the dispatcher of a standing node alone. -/
theorem dispatcher?_step (s : Session) {step : Step} (he : step.endsNode = false)
    (hr : step.reads = 0) : (s.step step).2.dispatcher? = s.dispatcher? := by
  cases ha : step.isAside with
  | true => exact congrArg (Option.map Node.dispatcher) (s.node_step_of_isAside ha he hr)
  | false => exact dispatcher?_of_outline (s.outline_step ha)

/-- What tells nothing of a call for a replica makes none. -/
theorem picks_of_reads {step : Step} (hr : step.reads = 0) (s : Session) :
    step.picks (s.step step).1 = [] := by
  cases step with
  | replica => cases hr
  | replicas count =>
    obtain rfl : count = 0 := hr
    rfl
  | _ => rfl

/-! ## Calls for a replica -/

section
variable {replicas : List Replica} {queue : List Nat} (hq : queue ≠ [])
  (hlt : ∀ i ∈ queue, i < replicas.length)
include hq hlt

/-- A call is answered by the replica whose turn it is. -/
theorem pick_after {s : Session} {n : Node} {j : Nat} (hn : s.node = some n)
    (hd : n.dispatcher = .after replicas queue j) :
    ∃ server, turn replicas queue j = .ok server ∧ (s.pick n).1 = .ok server ∧
      (s.pick n).2.dispatcher? = some (.after replicas queue (j + 1)) := by
  obtain ⟨settings, masterServer, reps, rotation, plan, closed, nextProbe, period_pos⟩ := n
  obtain ⟨rfl, rfl, rfl⟩ : closed = false ∧ reps = replicas ∧
      rotation = ⟨queue, j % queue.length⟩ := by
    simpa [Node.dispatcher, Dispatcher.after] using hd
  obtain ⟨i, hi, hnext⟩ := Rotation.next?_walk hq j
  obtain ⟨r, hget⟩ : ∃ r, reps[i]? = some r :=
    ⟨_, List.getElem?_eq_getElem (hlt i (List.mem_of_getElem? hi))⟩
  refine ⟨r.server, ?_, ?_, ?_⟩
  · simp only [turn, hi, Option.bind_some, hget]
  · simp only [pick, Node.replica?, hnext, hget]
    rfl
  · simp only [pick, Node.replica?, hnext, hget]
    rfl

theorem picks_after :
    ∀ (count : Nat) {s : Session} {j : Nat},
      s.dispatcher? = some (.after replicas queue j) →
        (Session.picks count s).1 = (List.range' j count).map (turn replicas queue) ∧
          (Session.picks count s).2.dispatcher? = some (.after replicas queue (j + count))
  | 0, _, _, hs => ⟨rfl, hs⟩
  | count + 1, s, j, hs => by
    obtain ⟨n, hn, hd⟩ := Option.map_eq_some_iff.1 hs
    obtain ⟨server, hturn, hpick, hnext⟩ := pick_after hq hlt hn hd
    obtain ⟨hrest, hlast⟩ := picks_after count hnext
    simp only [Session.picks, hn, hrest, hpick]
    refine ⟨?_, ?_⟩
    · rw [List.range'_succ, List.map_cons, hturn]
    · rw [hlast, Nat.add_assoc, Nat.add_comm 1]

/-- A step's calls take their turns, and whatever else it does leaves the next turn alone. -/
theorem step_after {s : Session} {j : Nat} (hs : s.dispatcher? = some (.after replicas queue j))
    {step : Step} (he : step.endsNode = false) :
    step.picks (s.step step).1 = (List.range' j step.reads).map (turn replicas queue) ∧
      (s.step step).2.dispatcher? = some (.after replicas queue (j + step.reads)) := by
  by_cases hr : step.reads = 0
  · rw [hr, picks_of_reads hr, dispatcher?_step s he hr]
    exact ⟨rfl, hs⟩
  cases step with
  | replica =>
    obtain ⟨n, hn, hd⟩ := Option.map_eq_some_iff.1 hs
    obtain ⟨server, hturn, hpick, hnext⟩ := pick_after hq hlt hn hd
    rcases hp : s.pick n with ⟨p, s'⟩
    rw [hp] at hpick hnext
    obtain rfl : p = .ok server := hpick
    simp only [Session.step, onNode, hn, hp]
    exact ⟨by simp [Step.picks, Step.reads, hturn], hnext⟩
  | replicas count => exact picks_after hq hlt count hs
  | _ => exact absurd rfl hr

/-- The calls of a run take their turns. -/
theorem run_after :
    ∀ {steps : List Step} {s : Session} {j : Nat},
      s.dispatcher? = some (.after replicas queue j) → (∀ step ∈ steps, step.endsNode = false) →
        s.picked steps = (List.range' j (steps.map Step.reads).sum).map (turn replicas queue) ∧
          (s.run steps).2.dispatcher? =
            some (.after replicas queue (j + (steps.map Step.reads).sum))
  | [], _, _, hs, _ => ⟨rfl, hs⟩
  | step :: rest, s, j, hs, hk => by
    obtain ⟨hpicks, hnext⟩ := step_after hq hlt hs (hk step (.head _))
    obtain ⟨hrest, hlast⟩ := run_after hnext fun step' h => hk step' (.tail _ h)
    simp only [picked, hpicks, hrest, List.map_cons, List.sum_cons]
    refine ⟨?_, ?_⟩
    · rw [← List.map_append, List.range'_append_1]
    · rw [← Nat.add_assoc]
      exact hlast

end

/-- What a built node dispatches: its queue, whose entries are places of replicas, each as often as
the replica's weight in lowest terms. -/
theorem queue_of_build {settings : Settings} {now : Nat} {g g' : Generator} {c c' : Cluster}
    {n : Node} (hb : Node.build settings now g c = (.ok n, g', c')) (hr : settings.replicas ≠ []) :
    n.dispatcher = .after n.replicas n.rotation.queue 0 ∧ n.rotation.queue ≠ [] ∧
      (∀ i ∈ n.rotation.queue, i < n.replicas.length) ∧
      ∀ i e, settings.replicas[i]? = some e →
        0 < e.weight.toNat / settings.weights.foldr Nat.gcd 0 ∧
          n.rotation.queue.count i = e.weight.toNat / settings.weights.foldr Nat.gcd 0 := by
  obtain ⟨hv, -, hclosed, hopened, hrot⟩ := Node.build_ok hb
  have hpos : ∀ w ∈ settings.weights, 0 < w := fun w => Settings.weight_pos hv
  have hne : settings.weights ≠ [] := by simpa [Settings.weights] using hr
  have hlen : settings.weights.length = n.replicas.length := by
    rw [← hopened.length_eq, Settings.weights, List.length_map]
  have hshare : ∀ i e, settings.replicas[i]? = some e →
      0 < e.weight.toNat / settings.weights.foldr Nat.gcd 0 ∧
        n.rotation.queue.count i = e.weight.toNat / settings.weights.foldr Nat.gcd 0 := by
    intro i e he
    have hw : settings.weights[i]? = some e.weight.toNat := by
      rw [Settings.weights, List.getElem?_map, he]; rfl
    have hmem := List.mem_of_getElem? hw
    refine ⟨Rotation.share_pos hmem (hpos _ hmem), ?_⟩
    rw [hrot, Rotation.count_queue, List.getD_eq_getElem?_getD, hw,
      Rotation.commonDivisor_eq hne hpos, Option.getD_some]
  refine ⟨?_, ?_, ?_, hshare⟩
  · rw [Node.dispatcher, Dispatcher.after, hclosed, Nat.zero_mod]
    congr 1
    rw [hrot]
    rfl
  · obtain ⟨e, rest, hl⟩ := List.exists_cons_of_ne_nil hr
    obtain ⟨h0, hcount⟩ := hshare 0 e (by rw [hl]; rfl)
    intro hnil
    rw [hnil, List.count_nil] at hcount
    omega
  · intro i hi
    rw [hrot] at hi
    rw [← hlen]
    exact Rotation.lt_of_mem_queue hi

/-- **Reads are dispatched in an exact weighted rotation.** As long as a built node with replicas
stands, whatever else happens between the calls, the call after `j` others is answered by the
replica at `j` modulo the length of the queue, which never changes. So any lap of the queue,
wherever it starts, serves each replica as often as its weight in lowest terms says, which is at
least once. -/
theorem dispatch_run {settings : Settings} {now : Nat} {g g' : Generator} {c c' : Cluster}
    {n : Node} (hb : Node.build settings now g c = (.ok n, g', c')) (hr : settings.replicas ≠ [])
    {s : Session} (hs : s.node = some n) {steps : List Step}
    (hk : ∀ step ∈ steps, step.endsNode = false) :
    let queue := n.rotation.queue
    let calls := (steps.map Step.reads).sum
    let share (e : Endpoint) := e.weight.toNat / settings.weights.foldr Nat.gcd 0
    (∃ n', (s.run steps).2.node = some n' ∧ n'.rotation.queue = queue) ∧
      (s.picked steps).length = calls ∧
      ∃ places : List Nat, places.length = calls ∧
        (∀ j < calls, ∃ i e r, places[j]? = some i ∧ queue[j % queue.length]? = some i ∧
          settings.replicas[i]? = some e ∧ n.replicas[i]? = some r ∧
          Dsn.address? e.dsn = some r.server ∧ (s.picked steps)[j]? = some (.ok r.server)) ∧
        ∀ i e, settings.replicas[i]? = some e → 0 < share e ∧ queue.count i = share e ∧
          ∀ k, k + queue.length ≤ calls →
            ((places.drop k).take queue.length).count i = share e := by
  intro queue calls share
  obtain ⟨hd, hq, hlt, hshare⟩ := queue_of_build hb hr
  obtain ⟨-, -, -, hopened, -⟩ := Node.build_ok hb
  obtain ⟨hpicked, hlast⟩ := run_after hq hlt (s := s) (j := 0) (by rw [dispatcher?, hs]; simp [hd])
    hk
  refine ⟨?_, by rw [hpicked]; simp [calls], ?_⟩
  · obtain ⟨n', hn', hd'⟩ := Option.map_eq_some_iff.1 hlast
    exact ⟨n', hn', congrArg (·.rotation.queue) hd'⟩
  have hplace : ∀ j, ∃ i, queue[j % queue.length]? = some i := fun j =>
    ⟨_, List.getElem?_eq_getElem (Nat.mod_lt j (List.length_pos_iff.2 hq))⟩
  -- The places are written down from the queue alone; `hpicked` says the calls met them.
  let places := (List.range' 0 calls).map fun j => queue.getD (j % queue.length) 0
  have hlen : places.length = calls := by simp [places]
  have hplaces : ∀ j < places.length, places[j]? = queue[j % queue.length]? := by
    intro j hj
    obtain ⟨i, hi⟩ := hplace j
    rw [hlen] at hj
    simp [places, List.getElem?_range' hj, List.getD_eq_getElem?_getD, hi]
  refine ⟨places, hlen, fun j hj => ?_, fun i e he => ?_⟩
  · obtain ⟨i, hi⟩ := hplace j
    obtain ⟨e, r, he, hget, -, haddr⟩ :=
      Replica.openedFor_at hopened (hlt i (List.mem_of_getElem? hi))
    refine ⟨i, e, r, (hplaces j (hlen ▸ hj)).trans hi, hi, he, hget, haddr, ?_⟩
    rw [hpicked, List.getElem?_map, List.getElem?_range' hj]
    simp [turn, show n.rotation.queue = queue from rfl, hi, hget]
  · obtain ⟨h0, hcount⟩ := hshare i e he
    refine ⟨h0, hcount, fun k hk => ?_⟩
    rw [Rotation.count_lap hplaces (hlen ▸ hk)]
    exact hcount

/-- Two replicas of weights 2 and 4, with a probe, a sleep and a transaction between the calls. -/
theorem dispatch_run_interleaved :
    let settings : Settings :=
      { master := { addr := "m:1" }
        replicas := [{ addr := "a:1", weight := 2 }, { addr := "b:1", weight := 4 }] }
    let steps := [Step.replica, .check, .replicas 2, .sleep (.ofMillis 40000), .beginThrough ⟨5⟩,
      .replica]
    ∃ n g c, Node.build settings 0 ⟨3⟩ {} = (.ok n, g, c) ∧ n.rotation.queue = [1, 1, 0] ∧
      ({ generator := g, cluster := c, node := some n } : Session).picked steps =
        [.ok "b:1", .ok "b:1", .ok "a:1", .ok "b:1"] := by
  intro settings steps
  have hbuilt : (Node.build settings 0 ⟨3⟩ {}).1.toOption.map (·.rotation.queue) =
      some [1, 1, 0] := by decide +kernel
  rcases hb : Node.build settings 0 ⟨3⟩ {} with ⟨err | n, g, c⟩ <;> rw [hb] at hbuilt
  · cases hbuilt
  have hq : n.rotation.queue = [1, 1, 0] := Option.some.inj hbuilt
  refine ⟨n, g, c, rfl, hq, ?_⟩
  have hk : ∀ step ∈ steps, step.endsNode = false := by decide
  obtain ⟨-, hlen, places, -, hat, -⟩ := dispatch_run hb (List.cons_ne_nil _ _)
    (s := { generator := g, cluster := c, node := some n }) rfl hk
  rw [hq] at hat
  have hcall : ∀ j i e, j < 4 → [1, 1, 0][j % 3]? = some i → settings.replicas[i]? = some e →
      Dsn.address? e.dsn = some e.addr →
      (Session.picked { generator := g, cluster := c, node := some n } steps)[j]? =
        some (.ok e.addr) := by
    intro j i e hj hi he haddr
    obtain ⟨i', e', r, -, hi', he', -, haddr', hp⟩ := hat j hj
    obtain rfl : i = i' := Option.some.inj (hi.symm.trans hi')
    obtain rfl : e = e' := Option.some.inj (he.symm.trans he')
    rw [hp, Option.some.inj (haddr'.symm.trans haddr)]
  apply List.ext_getElem?
  intro j
  rcases j with _ | _ | _ | _ | j
  · exact hcall 0 1 _ (by decide) rfl rfl (by decide +kernel)
  · exact hcall 1 1 _ (by decide) rfl rfl (by decide +kernel)
  · exact hcall 2 0 _ (by decide) rfl rfl (by decide +kernel)
  · exact hcall 3 1 _ (by decide) rfl rfl (by decide +kernel)
  · rw [List.getElem?_eq_none (Nat.le_trans (Nat.le_of_eq hlen) (by simp [steps, Step.reads]))]
    rfl

end Session

end ReplicaRouter
