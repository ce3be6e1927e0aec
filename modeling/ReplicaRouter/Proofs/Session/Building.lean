import ReplicaRouter.Proofs.Construction
import ReplicaRouter.Proofs.Session.Rounds

/-! # Building in a session

`Session.build_run` says what building a node comes to, for any settings and any servers: one node
over all endpoints, or the first reason against it and no node that would probe.
-/

namespace ReplicaRouter

namespace Session

/-- The session after settings were found wanting or a server refused: what it had of a node is
gone. -/
theorem step_build_of_error {settings : Settings} {s : Session} {err : RouterError}
    (h : (Node.build settings s.clock s.generator s.cluster).1 = .error err) {text : String}
    (ht : Settings.decode? text = some settings) :
    s.step (.build text) = (.failed (.router err),
      { s with
        generator := (Node.build settings s.clock s.generator s.cluster).2.1
        cluster := (Node.build settings s.clock s.generator s.cluster).2.2
        node := none }) := by
  have hb : Node.build settings s.clock s.generator s.cluster =
      (.error err, (Node.build settings s.clock s.generator s.cluster).2) := Prod.ext h rfl
  simp only [step, build, ht, dropNode]
  rw [hb]

/-- **A node is built over all its endpoints or not at all.** It is built if its settings are valid,
its rules make a plan and no endpoint's server refuses. Otherwise the error tells the first of these
that fails, and among the endpoints, the master's first, the first whose server refuses. Then the
servers before it have been opened, tuned and pinged, each as often as it was reached, its own too
unless it refused to be opened, and no server else was touched; no generator was drawn, and there is
no node to probe, whatever comes next. -/
theorem build_run (settings : Settings) (s : Session) :
    let endpoints := settings.endpoints
    let refuses := s.cluster.refuses
    let built := Node.build settings s.clock s.generator s.cluster
    ((∃ n, built.1 = .ok n) ↔ settings.validate = .ok () ∧
      (∃ plan, Plan.ofRules settings.rules = .ok plan) ∧ ∀ e ∈ endpoints, refuses e = false) ∧
    (∀ err, settings.validate = .error err → built = (.error err, s.generator, s.cluster)) ∧
    (∀ err, settings.validate = .ok () → Plan.ofRules settings.rules = .error err →
      built = (.error err, s.generator, s.cluster)) ∧
    (∀ plan, settings.validate = .ok () → Plan.ofRules settings.rules = .ok plan →
      (∀ before e after, endpoints = before ++ e :: after → (∀ b ∈ before, refuses b = false) →
        refuses e = true →
        built.1 = .error (.unreachable e before.length) ∧ built.2.1 = s.generator ∧
          s.cluster.Enlisted settings.pool (before.map Endpoint.server ++ s.cluster.reached e)
            built.2.2) ∧
      ((∀ e ∈ endpoints, refuses e = false) →
        built.2.1 = s.generator.fork.2 ∧
          s.cluster.Enlisted settings.pool (endpoints.map Endpoint.server) built.2.2)) ∧
    ∀ err, built.1 = .error err →
      let failed := { s with generator := built.2.1, cluster := built.2.2, node := none }
      (∀ text, Settings.decode? text = some settings →
        s.step (.build text) = (.failed (.router err), failed)) ∧
      ∀ steps : List Step, (∀ step ∈ steps, step.builds = false) → failed.rounds steps = [] ∧
        ∀ addr, ((failed.run steps).2.cluster.get addr).pings =
          (failed.cluster.get addr).pings + (steps.flatMap (Step.pinged [])).count addr := by
  intro endpoints refuses built
  have hstop : ∀ plan, settings.validate = .ok () → Plan.ofRules settings.rules = .ok plan →
      ∀ before e after, endpoints = before ++ e :: after → (∀ b ∈ before, refuses b = false) →
        refuses e = true →
        built.1 = .error (.unreachable e before.length) ∧ built.2.1 = s.generator ∧
          s.cluster.Enlisted settings.pool (before.map Endpoint.server ++ s.cluster.reached e)
            built.2.2 := by
    intro plan hv hp before e after hs hbefore he
    obtain ⟨c', hall, hc'⟩ := Node.enlistAll_stop hs hbefore he
    have hbuilt : built = (.error (.unreachable e before.length), s.generator, c') :=
      (Node.build_of_enlistAll hv hp).1 _ hall
    rw [hbuilt]
    exact ⟨rfl, rfl, hc'⟩
  have hok : ∀ plan, settings.validate = .ok () → Plan.ofRules settings.rules = .ok plan →
      (∀ e ∈ endpoints, refuses e = false) → (∃ n, built.1 = .ok n) ∧
        built.2.1 = s.generator.fork.2 ∧
          s.cluster.Enlisted settings.pool (endpoints.map Endpoint.server) built.2.2 := by
    intro plan hv hp hnone
    obtain ⟨c', hall, hc'⟩ := Node.enlistAll_ok hnone
    obtain ⟨n, hbuilt⟩ : ∃ n, built = (.ok n, s.generator.fork.2, c') :=
      (Node.build_of_enlistAll hv hp).2 _ hall
    rw [hbuilt]
    exact ⟨⟨n, rfl⟩, rfl, hc'⟩
  refine ⟨⟨?_, ?_⟩, fun err => Node.build_of_invalid, fun err => Node.build_of_badRule,
    fun plan hv hp => ⟨hstop plan hv hp, fun hnone => (hok plan hv hp hnone).2⟩, ?_⟩
  · rintro ⟨n, hn⟩
    have fails : ∀ err, built.1 ≠ .error err := by
      intro err herr
      cases hn.symm.trans herr
    rcases hv : settings.validate with err | ⟨⟩
    · exact absurd (congrArg Prod.fst (Node.build_of_invalid hv)) (fails err)
    rcases hp : Plan.ofRules settings.rules with err | plan
    · exact absurd (congrArg Prod.fst (Node.build_of_badRule hv hp)) (fails err)
    refine ⟨rfl, ⟨plan, rfl⟩, ?_⟩
    rcases hf : endpoints.find? refuses with _ | e
    · intro e he
      exact Bool.eq_false_iff.2 (List.find?_eq_none.1 hf e he)
    · obtain ⟨he, before, after, hs, hbefore⟩ := List.find?_eq_some_iff_append.1 hf
      obtain ⟨herr, -⟩ := hstop plan hv hp before e after hs (by simpa using hbefore) he
      exact absurd herr (fails _)
  · rintro ⟨hv, ⟨plan, hp⟩, hnone⟩
    exact (hok plan hv hp hnone).1
  · intro err herr failed
    refine ⟨fun text ht => step_build_of_error herr ht, fun steps hk => ?_⟩
    have hrest : failed.Resting := rfl
    refine ⟨rounds_of_resting hrest hk, fun addr => ?_⟩
    have hpings := pings_run (s := failed) hk (fun _ => rfl) addr
    rwa [rounds_of_resting hrest hk, List.length_nil, Nat.zero_mul, Nat.add_zero] at hpings

/-- Two replicas on one server, which does not answer: it is opened and pinged once, for the first
of them. -/
theorem build_run_shared :
    let settings : Settings :=
      { master := { addr := "m:1" }, replicas := [{ addr := "a:1" }, { addr := "a:1" }] }
    let s := ((fresh ⟨3⟩ 0).run [.refuse "a:1" .pinging true]).2
    settings.validate = .ok () ∧ (∃ plan, Plan.ofRules settings.rules = .ok plan) ∧
      ∃ c, Node.build settings s.clock s.generator s.cluster =
          (.error (.replicaUnreachable 0 "a:1" (.refused "a:1")), s.generator, c) ∧
        (c.get "a:1").opens = 1 ∧ (c.get "a:1").pings = 1 := by
  intro settings s
  have hv : settings.validate = .ok () := by decide
  obtain ⟨plan, hp⟩ : ∃ plan, Plan.ofRules settings.rules = .ok plan := ⟨_, rfl⟩
  have hm : settings.master.server = "m:1" := by decide +kernel
  have ha : Endpoint.server { addr := "a:1" } = "a:1" := by decide +kernel
  have hmaster : s.cluster.get "m:1" = {} := by decide +kernel
  have hreplica : s.cluster.get "a:1" = { refusesPing := true } := by decide +kernel
  obtain ⟨-, -, -, hbuilt, -⟩ := build_run settings s
  obtain ⟨herr, hg, hservers⟩ := (hbuilt plan hv hp).1 [settings.master] { addr := "a:1" }
    [{ addr := "a:1" }] rfl
    (List.forall_mem_singleton.2 (by rw [Cluster.refuses, hm, hmaster]; rfl))
    (by rw [Cluster.refuses, ha, hreplica]; rfl)
  have hreached : s.cluster.reached { addr := "a:1" } = ["a:1"] := by
    rw [Cluster.reached, ha, hreplica]
    rfl
  rcases hb : Node.build settings s.clock s.generator s.cluster with ⟨result, g, c⟩
  rw [hb] at herr hg hservers
  rw [hreached, List.map_singleton, hm] at hservers
  have hget := hservers.get "a:1"
  rw [hreplica] at hget
  refine ⟨hv, ⟨plan, hp⟩, c, ?_, ?_, ?_⟩
  · rw [show result = _ from herr, show g = _ from hg]
    rfl
  · rw [hget]
    rfl
  · rw [hget]
    rfl

end Session

end ReplicaRouter
