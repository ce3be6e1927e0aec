import ReplicaRouter.Proofs.Construction
import ReplicaRouter.Proofs.Session.Premises

/-! # Probe rounds

A round pings every endpoint's server once and reports those that do not answer.

* `Node.get_pingAll` and `Node.errors_pingAll`: what a round does to a server and what it reports,
  in terms of the node's own list of targets.
* `Session.linked_run`: a node reaches the servers of its settings' endpoints, in their order, as
  long as it stands. So its targets are those endpoints (`Node.Linked.targets_eq`).
* `Session.round_run` puts these together for every node of every run, whether the round is asked
  for or happens by itself.
-/

namespace ReplicaRouter

/-! ## Pings -/

/-- The server after it was pinged a number of times. -/
def Server.pinged (v : Server) (times : Nat) : Server := { v with pings := v.pings + times }

theorem Server.pinged_add (v : Server) (j k : Nat) : (v.pinged j).pinged k = v.pinged (j + k) := by
  simp only [pinged, Nat.add_assoc]

/-- What the round reports of a target, if its server does not answer. -/
def Cluster.report? (c : Cluster) (target : String × (DriverError → RouterError)) :
    Option RouterError :=
  if (c.get target.1).refusesPing then some (target.2 (.refused target.1)) else none

namespace Node

theorem get_ping (c : Cluster) (server addr : String) :
    (c.ping server).2.get addr = (c.get addr).pinged (if server = addr then 1 else 0) := by
  simp only [Cluster.ping, Cluster.get_modify, Server.pinged]
  by_cases h : addr = server
  · subst h
    simp
  · simp [h, Ne.symm h]

theorem report?_ping (c : Cluster) (server : String)
    (target : String × (DriverError → RouterError)) :
    (c.ping server).2.report? target = c.report? target := by
  simp only [Cluster.report?, get_ping, Server.pinged]

/-- A round pings a server as often as it stands among the targets, and does nothing else to it. -/
theorem get_pingAll (addr : String) :
    ∀ (l : List (String × (DriverError → RouterError))) (c : Cluster),
      (pingAll l c).2.get addr = (c.get addr).pinged ((l.map (·.1)).count addr)
  | [], _ => rfl
  | (server, _) :: rest, c => by
    show (pingAll rest (c.ping server).2).2.get addr = _
    rw [get_pingAll addr rest, get_ping, Server.pinged_add, List.map_cons, List.count_cons]
    simp only [beq_iff_eq, Nat.add_comm]

/-- A round goes on past every failure and reports each target that fails. -/
theorem errors_pingAll :
    ∀ (l : List (String × (DriverError → RouterError))) (c : Cluster),
      (pingAll l c).1 = l.filterMap c.report?
  | [], _ => rfl
  | (server, report) :: rest, c => by
    have hrest : (c.ping server).2.report? = c.report? := funext (report?_ping c server)
    have hfirst : (c.ping server).1.map report = c.report? (server, report) := by
      simp only [Cluster.ping, Cluster.report?]
      split <;> rfl
    show ((c.ping server).1.map report).toList ++ (pingAll rest (c.ping server).2).1 = _
    rw [errors_pingAll rest, hrest, hfirst, List.filterMap_cons]
    cases c.report? (server, report) <;> rfl

/-! ## Targets -/

/-- The node reaches the servers that its settings' endpoints name, in their order. -/
structure Linked (n : Node) : Prop where
  master : n.masterServer = n.settings.master.server
  replicas : n.replicas = n.settings.replicas.map Endpoint.replica

/-- Servers are enlisted for the endpoints that name them. -/
theorem servers_of_enlistAll {s : Settings} {c c' : Cluster} {servers : String × List Replica}
    (h : enlistAll s c = (.ok servers, c')) :
    servers = (s.master.server, s.replicas.map Endpoint.replica) := by
  rcases hf : s.endpoints.find? c.refuses with _ | e
  · obtain ⟨_, hall, -⟩ := enlistAll_ok fun e he =>
      Bool.eq_false_iff.2 (List.find?_eq_none.1 hf e he)
    rw [hall] at h
    exact (Except.ok.inj (Prod.mk.inj h).1).symm
  · obtain ⟨he, before, after, hs, hbefore⟩ := List.find?_eq_some_iff_append.1 hf
    obtain ⟨_, hall, -⟩ := enlistAll_stop hs (by simpa using hbefore) he
    rw [hall] at h
    cases h

theorem linked_of_build {s : Settings} {now : Nat} {g g' : Generator} {c c' : Cluster} {n : Node}
    (h : build s now g c = (.ok n, g', c')) : n.Linked := by
  unfold build at h
  split at h
  · cases h
  split at h
  · cases h
  split at h
  · cases h
  · rename_i master replicas _ he
    obtain ⟨rfl, rfl⟩ := Prod.mk.inj (servers_of_enlistAll he)
    obtain rfl := Except.ok.inj (Prod.mk.inj h).1
    exact ⟨rfl, rfl⟩

theorem settings_of_build {s : Settings} {now : Nat} {g g' : Generator} {c c' : Cluster} {n : Node}
    (h : build s now g c = (.ok n, g', c')) : n.settings = s := by
  unfold build at h
  split at h
  · cases h
  split at h
  · cases h
  split at h
  · cases h
  · obtain rfl := Except.ok.inj (Prod.mk.inj h).1
    rfl

/-- The target that probing makes of the endpoint at a place, the master's being 0. -/
def targetAt (e : Endpoint) : Nat → String × (DriverError → RouterError)
  | 0 => (e.server, .masterUnreachable e.addr)
  | i + 1 => (e.server, .replicaUnreachable i e.addr)

theorem fst_targetAt (e : Endpoint) (i : Nat) : (targetAt e i).1 = e.server := by
  cases i <;> rfl

theorem report?_targetAt (c : Cluster) (e : Endpoint) (i : Nat) :
    c.report? (targetAt e i) =
      if (c.get e.server).refusesPing then some (.unreachable e i) else none := by
  cases i <;> rfl

theorem Linked.targets_eq {n : Node} (h : n.Linked) :
    n.targets = n.settings.endpoints.zipIdx.map fun x => targetAt x.1 x.2 := by
  unfold targets Settings.endpoints
  rw [h.master, h.replicas, List.zipIdx_cons, List.map_cons, List.zipIdx_map, List.map_map,
    List.zipIdx_succ, List.map_map]
  rfl

end Node

/-- The endpoints whose servers do not answer a ping, each with its place. -/
def Cluster.silent (c : Cluster) (l : List Endpoint) : List (Endpoint × Nat) :=
  l.zipIdx.filter fun x => (c.get x.1.server).refusesPing

/-- What a round reports of the settings' endpoints and does to the servers. -/
theorem Node.Linked.probe {n : Node} (h : n.Linked) (c : Cluster) :
    (n.probe c).1 = (c.silent n.settings.endpoints).map (fun x => .unreachable x.1 x.2) ∧
      ∀ addr, (n.probe c).2.get addr =
        (c.get addr).pinged ((n.settings.endpoints.map Endpoint.server).count addr) := by
  have hservers : n.targets.map (·.1) = n.settings.endpoints.map Endpoint.server := by
    calc n.targets.map (·.1)
        = n.settings.endpoints.zipIdx.map fun x => x.1.server := by
          rw [h.targets_eq, List.map_map]
          exact List.map_congr_left fun x _ => fst_targetAt x.1 x.2
      _ = (n.settings.endpoints.zipIdx.map (·.1)).map Endpoint.server := by rw [List.map_map]; rfl
      _ = n.settings.endpoints.map Endpoint.server := by rw [List.zipIdx_map_fst]
  refine ⟨?_, fun addr => ?_⟩
  · rw [Node.probe, errors_pingAll, h.targets_eq, List.filterMap_map, Cluster.silent,
      ← List.filterMap_eq_map, List.filterMap_filter]
    exact List.filterMap_congr fun x _ => report?_targetAt c x.1 x.2
  · rw [Node.probe, get_pingAll, hservers]

namespace Session

/-! ## Nodes of a run -/

theorem linked_build (s : Session) (text : String) {n : Node}
    (h : (s.build text).2.node = some n) : n.Linked := by
  unfold build at h
  simp only at h
  split at h
  · cases h
  split at h
  · cases h
  · rename_i hb
    cases h
    exact Node.linked_of_build hb

theorem linked_step (s : Session) (step : Step) (h : ∀ n, s.node = some n → n.Linked) :
    ∀ n, (s.step step).2.node = some n → n.Linked := by
  intro n' hn'
  -- requests and probes change nothing of a node that its links are about
  have hsteady : ∀ s' : Session, s'.steady? = s.steady? → s'.node = some n' → n'.Linked := by
    intro s' hs' hnode
    rw [steady?, hnode, Option.map_some, eq_comm, steady?, Option.map_eq_some_iff] at hs'
    obtain ⟨n, hn, heq⟩ := hs'
    have hlinked : n.steady.Linked := ⟨(h n hn).master, (h n hn).replicas⟩
    rw [heq] at hlinked
    exact ⟨hlinked.master, hlinked.replicas⟩
  cases step with
  | build text => exact s.linked_build text hn'
  | drop => cases hn'
  | close =>
    simp only [Session.step, onNode] at hn'
    split at hn'
    · exact h n' hn'
    · rename_i n hn
      obtain rfl := Option.some.inj hn'
      exact ⟨(h n hn).master, (h n hn).replicas⟩
  | _ => exact hsteady _ (s.steady?_step rfl) hn'

theorem linked_run (g : Generator) (offset : Int) (steps : List Step) {n : Node}
    (hn : ((fresh g offset).run steps).2.node = some n) : n.Linked :=
  run_keeps (P := fun s => ∀ n, s.node = some n → n.Linked) (p := fun _ => True)
    (fun s step _ h => s.linked_step step h) steps (fun _ _ => trivial)
    (fun n hn => by cases hn) n hn

/-! ## Rounds -/

/-- **A round reports exactly the servers that do not answer.** It pings the server of every
endpoint of the node's settings, a server as often as endpoints name it, and reports those that do
not answer in the order of the endpoints, the master's first and then each replica's with its place
among the replicas, its address and the server's refusal. A check answers with the number of these
reports. Nothing else changes, except that a round that happens by itself puts the next one off. -/
theorem round_run (g : Generator) (offset : Int) (steps : List Step) {n : Node}
    (hn : ((fresh g offset).run steps).2.node = some n) :
    let s := ((fresh g offset).run steps).2
    let endpoints := n.settings.endpoints
    let errors := (s.cluster.silent endpoints).map fun x => RouterError.unreachable x.1 x.2
    ∃ c : Cluster,
      s.step .check = (.count errors.length,
        { s with cluster := c, failures := s.failures ++ errors }) ∧
      s.handle .probe =
        { s with cluster := c, failures := s.failures ++ errors, node := some (n.probed s.clock) } ∧
      ∀ addr, c.get addr =
        (s.cluster.get addr).pinged ((endpoints.map Endpoint.server).count addr) := by
  intro s endpoints errors
  obtain ⟨herrors, hservers⟩ := (linked_run g offset steps hn).probe s.cluster
  have hprobe : s.probe n = (errors.length,
      { s with cluster := (n.probe s.cluster).2, failures := s.failures ++ errors }) := by
    have herrors' : errors = (n.probe s.cluster).1 := herrors.symm
    rw [herrors']
    rfl
  have hnode : s.node = some n := hn
  refine ⟨(n.probe s.cluster).2, ?_, ?_, hservers⟩
  · simp only [step, onNode, hnode, hprobe]
  · simp only [handle, hnode, hprobe]

/-- The master and the second replica share a server that does not answer. -/
theorem round_run_shared :
    let steps := [Step.build "[\"\",0,2,0,[\"m:1\"],[[\"a:1\"],[\"m:1\"]]]",
      .refuse "m:1" .pinging true]
    let s := ((fresh ⟨3⟩ 0).run steps).2
    ∃ n, s.node = some n ∧ (s.step .check).1 = .count 2 ∧
      (s.step .check).2.failures = [.masterUnreachable "m:1" (.refused "m:1"),
        .replicaUnreachable 1 "m:1" (.refused "m:1")] ∧
      ((s.step .check).2.cluster.get "m:1").pings = 4 := by
  intro steps s
  let settings : Settings :=
    { master := { addr := "m:1" }, replicas := [{ addr := "a:1" }, { addr := "m:1" }] }
  have hread : Settings.decode? "[\"\",0,2,0,[\"m:1\"],[[\"a:1\"],[\"m:1\"]]]" = some settings := by
    decide +kernel
  have hm : Endpoint.server { addr := "m:1" } = "m:1" := by decide +kernel
  have ha : Endpoint.server { addr := "a:1" } = "a:1" := by decide +kernel
  have hnames : settings.endpoints.map Endpoint.server = ["m:1", "a:1", "m:1"] := by
    simp only [settings, Settings.endpoints, List.map_cons, List.map_nil, hm, ha]
  obtain ⟨c, hall, hservers⟩ := Node.enlistAll_ok (s := settings) (c := {}) fun _ _ => rfl
  have hbuilds : ∃ n, Node.build settings 0 ⟨3⟩ {} = (.ok n, (Generator.fork ⟨3⟩).2, c) :=
    (Node.build_of_enlistAll (by decide) (by rfl)).2 _ hall
  obtain ⟨n, hbuild⟩ := hbuilds
  let told := c.modify "m:1" fun v => v.refuse true .pinging
  have hs : s = { generator := (Generator.fork ⟨3⟩).2, cluster := told, node := some n } := by
    simp only [s, steps, run, step, build, hread, dropNode, fresh, hbuild, told]
  have hsettings : n.settings = settings := Node.settings_of_build hbuild
  have hrefuses : ∀ addr, (told.get addr).refusesPing = decide (addr = "m:1") := by
    intro addr
    by_cases h : addr = "m:1"
    · simp [told, Cluster.get_modify, h, Server.refuse]
    · rw [Cluster.get_modify, if_neg h, hservers.get, Server.refusesPing_enlisted,
        decide_eq_false h]
      rfl
  have hpinged : (told.get "m:1").pings = 2 := by
    simp only [told, Cluster.get_modify, if_pos, Server.refuse, hservers.get, hnames]
    rfl
  have hnode : s.node = some n := by rw [hs]
  obtain ⟨c', hcheck, -, hpings⟩ := round_run ⟨3⟩ 0 steps hnode
  have hsilent : (s.cluster.silent n.settings.endpoints).map
      (fun x => RouterError.unreachable x.1 x.2) = [.masterUnreachable "m:1" (.refused "m:1"),
        .replicaUnreachable 1 "m:1" (.refused "m:1")] := by
    rw [hs, hsettings]
    simp [Cluster.silent, settings, Settings.endpoints, hrefuses, hm, ha, RouterError.unreachable]
  refine ⟨n, hnode, ?_⟩
  rw [hcheck, hsilent]
  refine ⟨rfl, ?_, ?_⟩
  · show s.failures ++ _ = _
    rw [hs]
    rfl
  · show (c'.get "m:1").pings = 4
    rw [hpings, hsettings, hnames]
    show (s.cluster.get "m:1").pings + 2 = 4
    rw [hs, hpinged]

end Session

end ReplicaRouter
