import ReplicaRouter.Proofs.Session.Probing

/-! # Rounds

A background round is a probe of the node that happens by itself. `Session.rounds` are the instants
at which those of a run happen.

* `Session.pings_run`: every ping that a server gets during a run, it gets directly, from a check or
  from one of these rounds, so there are no others.
* `Session.rounds_of_resting`: without a node, and once it is closed, there are none.
-/

namespace ReplicaRouter

/-- The notes of when the rounds happen. -/
def Notes.rounds : Notes Nat where
  event s e := if e.2 = .probe then [max s.clock e.1] else []
  step
    | s, .happen .probe => if s.nextProbe?.any (· ≤ s.clock) then [s.clock] else []
    | _, _ => []

theorem Notes.rounds_event (s : Session) (e : Nat × Event) :
    rounds.event s e = if e.2 = .probe then [max s.clock e.1] else [] := rfl

theorem Notes.rounds_happen (s : Session) :
    rounds.ofStep s (.happen .probe) = if s.nextProbe?.any (· ≤ s.clock) then [s.clock] else [] :=
  rfl

/-- The rounds in a run, in order. -/
def Session.rounds (s : Session) (steps : List Step) : List Nat := Notes.rounds.ofRun s steps

def Step.builds : Step → Bool
  | .build _ => true
  | _ => false

namespace Session

/-! ## Pings -/

/-- The servers that the node probes, a server as often as the node reaches it. -/
def probed (s : Session) : List String :=
  match s.node with
  | none => []
  | some n => n.targets.map (·.1)

/-- How often a server was pinged. -/
def pings (s : Session) (addr : String) : Nat := (s.cluster.get addr).pings

theorem probed_congr {s s' : Session} (h : s'.steady? = s.steady?) : s'.probed = s.probed := by
  have key : ∀ s : Session, s.probed = (s.steady?.map (·.targets.map (·.1))).getD [] := by
    intro s
    unfold probed steady?
    rcases s.node with _ | n <;> rfl
  rw [key, key, h]

theorem pings_probe {s : Session} {n : Node} (hn : s.node = some n) (addr : String) :
    (s.probe n).2.pings addr = s.pings addr + s.probed.count addr := by
  simp only [probed, hn]
  exact congrArg Server.pings (Node.get_pingAll addr n.targets s.cluster)

theorem pings_of_front {s s' : Session} (h : s'.premises = s.premises) (addr : String) :
    s'.pings addr = s.pings addr :=
  congrArg (fun p : Premises => (p.front addr).pings) h

theorem pings_handle (s : Session) (e : Event) (addr : String) :
    (s.handle e).pings addr = s.pings addr + if e = .probe then s.probed.count addr else 0 := by
  cases e with
  | probe =>
    simp only [handle, if_true]
    split
    · rename_i hn
      simp [probed, hn]
    · rename_i n hn
      exact pings_probe hn addr
  | expire id => exact pings_of_front (s.premises_change id Transaction.front_expire) addr

/-- Each round pings every server as often as the node reaches it. -/
theorem pings_fireUpTo (limit fuel : Nat) (addr : String) (s : Session) :
    (fireUpTo limit fuel s).pings addr =
      s.pings addr + (Notes.rounds.upTo limit fuel s).length * s.probed.count addr := by
  suffices h : (fireUpTo limit fuel s).pings addr =
      s.pings addr + (Notes.rounds.upTo limit fuel s).length * s.probed.count addr ∧
        (fireUpTo limit fuel s).probed = s.probed from h.1
  refine Notes.rounds.upTo_keeps (R := fun s l s' =>
    s'.pings addr = s.pings addr + l.length * s.probed.count addr ∧ s'.probed = s.probed)
    ?_ ?_ ?_ fuel s
  · exact fun s => ⟨by rw [List.length_nil, Nat.zero_mul, Nat.add_zero], rfl⟩
  · rintro s s' s'' l l' ⟨h, hp⟩ ⟨h', hp'⟩
    refine ⟨?_, hp'.trans hp⟩
    rw [h', h, hp, List.length_append, Nat.add_mul, Nat.add_assoc]
  · intro s e he
    have hpings : (s.fire e).pings addr = s.pings addr +
        if e.2 = .probe then s.probed.count addr else 0 :=
      pings_handle { s with clock := max s.clock e.1 } e.2 addr
    refine ⟨?_, probed_congr
      (steady?_of_outline (outline_handle { s with clock := max s.clock e.1 } e.2))⟩
    rw [hpings, Notes.rounds_event]
    split
    · rw [List.length_singleton, Nat.one_mul]
    · rw [List.length_nil, Nat.zero_mul]

theorem pings_sleep (s : Session) (time : Duration) (addr : String) :
    (s.sleep time).pings addr =
      s.pings addr + (Notes.rounds.during s time).length * s.probed.count addr :=
  pings_fireUpTo _ _ addr s

theorem pings_happen (s : Session) (e : Event) (addr : String) :
    (s.happen e).pings addr =
      s.pings addr + (Notes.rounds.ofStep s (.happen e)).length * s.probed.count addr := by
  cases e with
  | probe =>
    rw [happen_probe, Notes.rounds_happen]
    split
    · rw [pings_handle, if_pos rfl, List.length_singleton, Nat.one_mul]
    · rw [List.length_nil, Nat.zero_mul, Nat.add_zero]
  | expire id =>
    have hr : Notes.rounds.ofStep s (.happen (.expire id)) = [] := rfl
    rw [hr, List.length_nil, Nat.zero_mul, Nat.add_zero]
    obtain ⟨_, -, -, h⟩ | ⟨-, h⟩ := s.happen_cases (.expire id) <;> rw [h]
    exact s.pings_handle (.expire id) addr

end Session

/-- The servers that a step pings by itself, given those that the node probes. -/
def Step.pinged (probed : List String) : Step → List String
  | .ping server => [server]
  | .check => probed
  | _ => []

namespace Session

/-- What a step that is no hold adds to the pings of a server. -/
theorem pings_step (s : Session) {step : Step} (hb : step.builds = false)
    (hh : step.isHold = false) (addr : String) :
    (s.step step).2.pings addr = s.pings addr + (step.pinged s.probed).count addr +
      (Notes.rounds.ofStep s step).length * s.probed.count addr := by
  have same : (s.step step).2.pings addr = s.pings addr → step.pinged s.probed = [] →
      Notes.rounds.ofStep s step = [] → (s.step step).2.pings addr = s.pings addr +
        (step.pinged s.probed).count addr +
          (Notes.rounds.ofStep s step).length * s.probed.count addr := by
    intro h hp hr
    rw [hp, hr, h, List.count_nil, List.length_nil, Nat.zero_mul, Nat.add_zero]
  have quiet : (s.step step).2.cluster = s.cluster → step.pinged s.probed = [] →
      Notes.rounds.ofStep s step = [] → (s.step step).2.pings addr = s.pings addr +
        (step.pinged s.probed).count addr +
          (Notes.rounds.ofStep s step).length * s.probed.count addr :=
    fun h => same (congrArg (fun c => (c.get addr).pings) h)
  by_cases hc : step.isCall = true
  · have h := pings_of_front (s.premises_step hc) addr
    cases step with
    | beginOn | beginThrough | execute | lend | giveBack | commit | rollBack | disown =>
      exact same h rfl rfl
    | _ => cases hc
  by_cases hl : step.isLook = true
  · have h : (s.step step).2.cluster = s.cluster := by rw [s.step_of_isLook hl]
    cases step with
    | inspect | isClosed | settings | queue | master | tableName | strategy | left | isLive =>
      exact quiet h rfl rfl
    | _ => cases hl
  cases step with
  | sleep time => exact s.pings_sleep time addr
  | settle => exact s.pings_sleep ⟨0⟩ addr
  | happen e => exact s.pings_happen e addr
  | refuse server what on =>
    exact same (s.cluster.get_modify_keeps Server.pings server addr fun v => by cases what <;> rfl)
      rfl rfl
  | connect dsn =>
    have h : ((s.cluster.connect dsn).2.get addr).pings = (s.cluster.get addr).pings := by
      unfold Cluster.connect
      split
      · rfl
      · split
        · rfl
        · exact s.cluster.get_modify_keeps Server.pings _ addr fun _ => rfl
    exact same (by rw [pings, step_connect, h, pings]) rfl rfl
  | ping server =>
    have hr : Notes.rounds.ofStep s (.ping server) = [] := rfl
    simp only [Session.step, pings, Cluster.ping, Cluster.get_modify, Step.pinged, hr,
      List.count_singleton, beq_iff_eq]
    by_cases ha : addr = server
    · subst ha
      simp
    · simp [ha, Ne.symm ha]
  | tune server pool =>
    exact same (s.cluster.get_modify_keeps Server.pings server addr fun _ => rfl) rfl rfl
  | check =>
    have hr : Notes.rounds.ofStep s .check = [] := rfl
    simp only [Session.step, onNode, Step.pinged, hr, List.length_nil, Nat.zero_mul, Nat.add_zero]
    split
    · rename_i hn
      simp [probed, hn]
    · rename_i n hn
      exact pings_probe hn addr
  | close => exact quiet (onNode_keeps Session.cluster fun _ => rfl) rfl rfl
  | replica =>
    obtain ⟨_, hp⟩ := picks_eq 1 s
    exact quiet (by rw [step_replica, hp]) rfl rfl
  | replicas count =>
    obtain ⟨_, hp⟩ := picks_eq count s
    refine quiet ?_ rfl rfl
    show (picks count s).2.cluster = s.cluster
    rw [hp]
  | hold => cases hh
  | build => cases hb
  | drop | takeFailures | jump => exact quiet rfl rfl rfl
  | inspect | isClosed | settings | queue | master | tableName | strategy | left | isLive =>
    exact absurd rfl hl
  | _ => exact absurd rfl hc

/-- A step that neither builds nor drops a node leaves it the servers that it probes. -/
theorem probed_step (s : Session) {step : Step} (hb : step.builds = false) (hd : step ≠ .drop) :
    (s.step step).2.probed = s.probed := by
  cases step with
  | build => cases hb
  | drop => exact absurd rfl hd
  | close =>
    simp only [Session.step, onNode]
    split
    · rfl
    · rename_i n hn
      simp only [probed, hn]
      rfl
  | _ => exact probed_congr (s.steady?_step rfl)

theorem pings_runAlong (addr : String) :
    ∀ (steps : List Step) {s : Session}, (∀ step ∈ steps, step.builds = false) →
      (∀ step ∈ steps, step.isHold = false) → (.drop ∈ steps → s.probed = []) →
      (s.run steps).2.pings addr = s.pings addr +
        (steps.flatMap (Step.pinged s.probed)).count addr +
        (Notes.rounds.along s steps).length * s.probed.count addr
  | [], s, _, _, _ => by simp [run, Notes.along]
  | step :: rest, s, hb, hh, hd => by
    have hprobed : (s.step step).2.probed = s.probed := by
      by_cases h : step = .drop
      · rw [hd (by rw [h]; exact .head _), h]
        rfl
      · exact s.probed_step (hb step (.head _)) h
    have hstep := s.pings_step (hb step (.head _)) (hh step (.head _)) addr
    have hrest := pings_runAlong addr rest (s := (s.step step).2) (fun x hx => hb x (.tail _ hx))
      (fun x hx => hh x (.tail _ hx)) fun h => by rw [hprobed]; exact hd (.tail _ h)
    rw [hprobed, hstep] at hrest
    simp only [List.flatMap_cons, List.count_append, Notes.along, List.length_append, Nat.add_mul]
    refine hrest.trans ?_
    omega

theorem pinged_unheld (probed : List String) : ∀ (steps : List Step) (s : Session),
    (s.unheld steps).flatMap (Step.pinged probed) = steps.flatMap (Step.pinged probed)
  | [], _ => rfl
  | step :: rest, s => by
    have hparts : ∀ answer : Answer,
        (step.parts answer).flatMap (Step.pinged probed) = step.pinged probed := by
      intro answer
      cases hh : step.isHold with
      | false => rw [Step.parts_of_not_isHold hh, List.flatMap_singleton]
      | true =>
        cases step with
        | hold id before time after =>
          obtain h | h := Step.parts_hold id before time after answer <;> rw [h] <;> rfl
        | _ => cases hh
    unfold unheld
    rw [List.flatMap_append, hparts, pinged_unheld probed rest, List.flatMap_cons]

/-- **Every ping has its reason.** A server is pinged directly, by a check or by a round, and by one
of these as often as the node reaches the server. -/
theorem pings_run {s : Session} {steps : List Step} (hb : ∀ step ∈ steps, step.builds = false)
    (hd : .drop ∈ steps → s.probed = []) (addr : String) :
    (s.run steps).2.pings addr = s.pings addr +
      (steps.flatMap (Step.pinged s.probed)).count addr +
      (s.rounds steps).length * s.probed.count addr := by
  let p : Step → Prop := fun step => step.builds = false ∧ (step = .drop → s.probed = [])
  have hparts : ∀ id before time after, ∀ x ∈ Step.partsOfHold id before time after, p x := by
    intro id before time after
    apply Step.forall_partsOfHold
    · exact ⟨rfl, by simp⟩
    · exact fun _ => ⟨rfl, by simp⟩
    · exact ⟨rfl, by simp⟩
    · exact ⟨rfl, by simp⟩
    · exact ⟨rfl, by simp⟩
  have hsimple := forall_unheld (s := s) hparts fun step hm => ⟨hb step hm, fun h => hd (h ▸ hm)⟩
  rw [← run_unheld, ← pinged_unheld _ steps s]
  exact pings_runAlong addr _ (fun x hx => (hsimple x hx).1.1) (fun x hx => (hsimple x hx).2)
    fun hx => (hsimple _ hx).1.2 rfl

/-! ## Sessions without rounds -/

/-- A session whose node is gone or closed has no probe to come. -/
def Resting (s : Session) : Prop := s.nextProbe? = none

theorem resting_congr {s s' : Session} (h : s'.steady? = s.steady?) (hs : s.Resting) :
    s'.Resting := by
  have key : ∀ s : Session, s.Resting ↔ ∀ n, s.steady? = some n → n.closed = true := by
    intro s
    unfold Resting nextProbe? steady?
    rcases s.node with _ | n
    · simp
    · simp [Node.due?, Node.steady, Node.unscheduled, Node.unturned]
  rw [key] at hs ⊢
  rw [h]
  exact hs

theorem resting_close (s : Session) : (s.step .close).2.Resting := by
  simp only [step, onNode]
  split
  · rename_i hn
    simp only [Resting, Session.nextProbe?, hn]
    rfl
  · rfl

theorem resting_step {s : Session} (h : s.Resting) {step : Step} (hb : step.builds = false) :
    (s.step step).2.Resting := by
  cases step with
  | build => cases hb
  | drop => rfl
  | close =>
    simp only [Session.step, onNode]
    split
    · exact h
    · rfl
  | _ => exact resting_congr (s.steady?_step rfl) h

theorem resting_keeps : Notes.rounds.Keeps (·.builds = false) fun s l s' =>
    s.Resting → l = [] ∧ s'.Resting where
  refl s h := ⟨rfl, h⟩
  append h h' hs := by
    obtain ⟨rfl, hs'⟩ := h hs
    exact h' hs'
  event {s limit e} he h := by
    have hprobe : e.2 ≠ .probe := by
      intro hx
      obtain ⟨due, rfl⟩ : ∃ due, e = (due, .probe) := ⟨e.1, Prod.ext rfl hx⟩
      cases h.symm.trans (mem_events_probe.1 (nextEvent?_some he).1)
    rw [Notes.rounds_event, if_neg hprobe]
    exact ⟨rfl, resting_congr
      (steady?_of_outline (outline_handle { s with clock := max s.clock e.1 } e.2)) h⟩
  pass _ h := ⟨rfl, h⟩
  step s {step} hb _ sleep h := by
    refine ⟨?_, resting_step h hb⟩
    cases step with
    | sleep time => exact (sleep time h).1
    | settle => exact (sleep ⟨0⟩ h).1
    | happen e =>
      cases e with
      | probe =>
        have hnext : s.nextProbe? = none := h
        rw [Notes.rounds_happen, hnext]
        rfl
      | expire => rfl
    | _ => rfl

/-- Without a node, and once it is closed, there are no rounds until another is built. -/
theorem rounds_of_resting {s : Session} (h : s.Resting) {steps : List Step}
    (hb : ∀ step ∈ steps, step.builds = false) : s.rounds steps = [] := by
  refine (resting_keeps.ofRun ?_ h).1
  exact forall_unheld (fun _ _ _ _ => Step.forall_partsOfHold rfl (fun _ => rfl) rfl rfl rfl) hb

end Session

end ReplicaRouter
