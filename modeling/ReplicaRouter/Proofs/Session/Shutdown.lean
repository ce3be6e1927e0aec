import ReplicaRouter.Proofs.Session.Agreement
import ReplicaRouter.Proofs.Session.Rounds

/-! # Shutdown

A closed node refuses requests for good and leaves open work alone.

* `Session.Shut.step`: whatever happens next, a node that was closed stays as it was closed, apart
  from the place of its rotation and its next probe, until it is dropped.
* `Session.Shut.refuses` and `Session.Shut.looksUp`: it refuses requests for servers, and what it
  tells of its settings, its queue and its plan is what it told before.
* `Session.closed_run`: transactions begun before the close fare as if it had not happened.
-/

namespace ReplicaRouter

/-- The steps that look something up in the node which closing it does not change. -/
def Step.looksUp : Step → Bool
  | .settings => true
  | .queue => true
  | .tableName _ _ => true
  | .strategy _ => true
  | _ => false

namespace Session

theorem offset_step (s : Session) (step : Step) : (s.step step).2.offset = s.offset := by
  cases ha : step.isAside with
  | false => exact congrArg Outline.offset (s.outline_step ha)
  | true =>
    by_cases hl : step.isLook = true
    · rw [s.step_of_isLook hl]
    cases step with
    | connect dsn => rw [step_connect]
    | replica =>
      obtain ⟨_, hp⟩ := picks_eq 1 s
      rw [step_replica, hp]
    | replicas count =>
      obtain ⟨_, hp⟩ := picks_eq count s
      show (picks count s).2.offset = s.offset
      rw [hp]
    | build text =>
      show (s.build text).2.offset = s.offset
      simp only [build, dropNode]
      split
      · rfl
      · split <;> rfl
    | close => exact onNode_keeps Session.offset fun _ => rfl
    | check => exact onNode_keeps Session.offset fun _ => rfl
    | refuse | ping | tune | drop | takeFailures => rfl
    | inspect | isClosed | settings | queue | master | tableName | strategy | left | isLive =>
      exact absurd rfl hl
    | _ => cases ha

/-! ## Closed nodes -/

/-- The session's node is the one given, closed, apart from the place of its rotation and its next
probe. -/
def Shut (n : Node) (s : Session) : Prop := s.steady? = some n.close.steady

section
variable {s : Session} {n : Node}

theorem shut_close (hn : s.node = some n) : Shut n (s.step .close).2 := by
  simp only [Shut, step, onNode, hn]
  rfl

theorem Shut.step (h : Shut n s) {step : Step} (hb : step.builds = false) (hd : step ≠ .drop) :
    Shut n (s.step step).2 := by
  cases step with
  | build => cases hb
  | drop => exact absurd rfl hd
  | close =>
    obtain ⟨n', hn', hsteady⟩ := Option.map_eq_some_iff.1 h
    simp only [Shut, Session.step, onNode, hn']
    exact congrArg (fun n => some n.close) hsteady
  | _ => exact (s.steady?_step rfl).trans h

theorem Shut.run (h : Shut n s) {steps : List Step} (hb : ∀ step ∈ steps, step.builds = false)
    (hd : .drop ∉ steps) : Shut n (s.run steps).2 := by
  refine run_keeps (p := fun step => step.builds = false ∧ step ≠ .drop)
    (fun s step hp hs => hs.step hp.1 hp.2) steps (fun step hm => ⟨hb step hm, ?_⟩) h
  rintro rfl
  exact hd hm

/-- What is left of the node that was closed. -/
theorem Shut.exists_node (h : Shut n s) : ∃ n', s.node = some n' ∧ n'.closed = true ∧
    n'.settings = n.settings ∧ n'.rotation.queue = n.rotation.queue ∧ n'.plan = n.plan := by
  obtain ⟨n', hn', hsteady⟩ := Option.map_eq_some_iff.1 h
  exact ⟨n', hn', (congrArg Node.closed hsteady : _), (congrArg Node.settings hsteady : _),
    (congrArg (fun n => n.rotation.queue) hsteady : _), (congrArg Node.plan hsteady : _)⟩

/-- Requests for servers are refused, and change nothing. -/
theorem Shut.refuses (h : Shut n s) :
    s.step .master = (.failed (.router .masterClosed), s) ∧
      (∀ requested, s.step (.beginThrough requested) = (.failed (.router .masterClosed), s)) ∧
      s.step .replica = (.failed (.router .replicasClosed), s) ∧
      ∀ count, s.step (.replicas count) =
        (.servers (List.replicate count (.error .replicasClosed)), s) := by
  obtain ⟨n', hn', hclosed, -⟩ := h.exists_node
  have hmaster : n'.master? = .error .masterClosed := by rw [Node.master?, if_pos hclosed]
  have hpick : s.pick n' = (.error .replicasClosed, s) := by
    simp only [pick, Node.replica?, hclosed, if_true]
  have hpicks : ∀ count, picks count s = (List.replicate count (.error .replicasClosed), s) := by
    intro count
    induction count with
    | zero => rfl
    | succ count ih => simp only [picks, hn', hpick, ih, List.replicate_succ]
  refine ⟨?_, fun requested => ?_, ?_, fun count => ?_⟩
  · simp only [Session.step, onNode, hn', hmaster]
  · simp only [Session.step, onNode, hn', beginThrough, hmaster]
  · simp only [Session.step, onNode, hn', hpick]
  · simp only [Session.step, hpicks]

/-- What is looked up is what it was before. -/
theorem Shut.looksUp {s₀ : Session} (h : Shut n s) (hn : s₀.node = some n)
    (ho : s.offset = s₀.offset) {step : Step} (hl : step.looksUp = true) :
    s.step step = ((s₀.step step).1, s) := by
  obtain ⟨n', hn', -, hsettings, hqueue, hplan⟩ := h.exists_node
  cases step with
  | settings => simp only [Session.step, onNode, hn', hn, hsettings]
  | queue => simp only [Session.step, onNode, hn', hn, hqueue]
  | tableName table keys =>
    simp only [Session.step, onNode, hn', hn, hplan, ho]
    split <;> rfl
  | strategy table => simp only [Session.step, onNode, hn', hn, hplan]
  | _ => cases hl

end

/-! ## Runs after a close -/

theorem offset_run : ∀ (steps : List Step) (s : Session), (s.run steps).2.offset = s.offset
  | [], _ => rfl
  | step :: rest, s => (offset_run rest (s.step step).2).trans (s.offset_step step)

end Session

/-- The books count the same but for what later transactions count for. -/
def Books.SameBelow (k : Nat) (b b' : Books) : Prop :=
  ∀ addr,
    (b'.account addr).begins + total (fun _ => 1) addr (b.transactions.drop k) =
      (b.account addr).begins + total (fun _ => 1) addr (b'.transactions.drop k) ∧
    (b'.account addr).commits + total Transaction.commits addr (b.transactions.drop k) =
      (b.account addr).commits + total Transaction.commits addr (b'.transactions.drop k) ∧
    (b'.account addr).rollbacks + total Transaction.rollbacks addr (b.transactions.drop k) =
      (b.account addr).rollbacks + total Transaction.rollbacks addr (b'.transactions.drop k)

/-- What the first transactions have come to count for is the same wherever they are the same. -/
theorem Moves.sameBelow {k : Nat} {b b₁ b₂ : Books} {h₁ h₂ : List Entry} (hm₁ : Moves b h₁ b₁)
    (hm₂ : Moves b h₂ b₂) (hsame : b₂.transactions.take k = b₁.transactions.take k) :
    Books.SameBelow k b₁ b₂ := by
  intro addr
  obtain ⟨hb₁, hc₁, hr₁⟩ := hm₁.balance addr
  obtain ⟨hb₂, hc₂, hr₂⟩ := hm₂.balance addr
  have split : ∀ (f : Transaction → Nat) (l : List Transaction),
      total f addr l = total f addr (l.take k) + total f addr (l.drop k) := by
    intro f l
    rw [← total_append, List.take_append_drop]
  rw [split _ b₁.transactions] at hb₁ hc₁ hr₁
  rw [split _ b₂.transactions, hsame] at hb₂ hc₂ hr₂
  omega

namespace Session

theorem Agree.take_eq {k : Nat} {s s' : Session} (h : Agree k s s') :
    s'.transactions.take k = s.transactions.take k := by
  apply List.ext_getElem?
  intro i
  rw [List.getElem?_take, List.getElem?_take]
  split
  · rename_i hi
    exact h.same i hi
  · rfl

/-- **Closing is for good and leaves open work alone.** From a close until the node is dropped or
another is built, requests for servers are refused and change nothing, what the node tells of
itself is what it told before, and there is no round: a server is pinged directly and by checks
alone. Every transaction begun before the close is, at any point of what comes next, where it would
be without the close, in any run in which the same time passes and the same is called on those
transactions: calls on it are answered the same and have the same effect on its server, the same was
done to it, and but for later transactions its server counts the same. Such a run is the one that
leaves out this close and any others. Only holds of later transactions might get no connection after
the close and let no time pass, so there the other run is to let pass what this one does. -/
theorem closed_run {s : Session} {n : Node} (hn : s.node = some n) {a : List Step}
    (hk : ∀ step ∈ a, step.builds = false) :
    let k := s.transactions.length
    let closed := (s.step .close).2
    let s₁ := (closed.run a).2
    closed.rounds a = [] ∧
    (.drop ∉ a →
      s₁.step .master = (.failed (.router .masterClosed), s₁) ∧
      (∀ requested, s₁.step (.beginThrough requested) = (.failed (.router .masterClosed), s₁)) ∧
      s₁.step .replica = (.failed (.router .replicasClosed), s₁) ∧
      (∀ count, s₁.step (.replicas count) =
        (.servers (List.replicate count (.error .replicasClosed)), s₁)) ∧
      (∀ step : Step, step.looksUp = true → s₁.step step = ((s.step step).1, s₁)) ∧
      ∀ addr, (s₁.cluster.get addr).pings = (s.cluster.get addr).pings +
        (a.flatMap (Step.pinged s.probed)).count addr) ∧
    (∀ b : List Step, closed.bearing k a = s.bearing k b →
      let s₂ := (s.run b).2
      s₂.clock = s₁.clock ∧
      (∀ i < k, ∃ t, s₁.transactions[i]? = some t ∧ s₂.transactions[i]? = some t ∧
        (∀ step : Step, step.callsOn i = true → (s₂.step step).1 = (s₁.step step).1) ∧
        ∀ step : Step, step.subject? = some i → ∃ effect,
          (s₁.step step).2.cluster.accounts = recordAt t.server effect s₁.cluster.accounts ∧
          (s₂.step step).2.cluster.accounts = recordAt t.server effect s₂.cluster.accounts) ∧
      entriesBelow k (closed.history a) = entriesBelow k (s.history b) ∧
      Books.SameBelow k s₁.books s₂.books) ∧
    ∀ b : List Step, a.filter (· ≠ .close) = b.filter (· ≠ .close) →
      (∀ step ∈ a, step.holdsBeyond k = false) → closed.bearing k a = s.bearing k b := by
  intro k closed s₁
  have hclosed : closed.books = s.books := s.books_step_of_isAside rfl
  have hcluster : closed.cluster = s.cluster := by
    simp only [closed, step, onNode, hn]
  have hlength : k ≤ s.transactions.length := Nat.le_refl _
  have hstart : Agree k closed s := (Agree.of_books hlength hclosed).symm
  refine ⟨rounds_of_resting s.resting_close hk, fun hd => ?_, fun b hab => ?_,
    fun b hab hholds => hstart.bearing_congr hab hholds⟩
  · have hshut : Shut n s₁ := (shut_close hn).run hk hd
    obtain ⟨hmaster, hbegin, hreplica, hreplicas⟩ := hshut.refuses
    have hoffset : s₁.offset = s.offset := (offset_run a closed).trans (s.offset_step .close)
    refine ⟨hmaster, hbegin, hreplica, hreplicas, fun step hl => hshut.looksUp hn hoffset hl,
      fun addr => ?_⟩
    have hprobed : closed.probed = s.probed := s.probed_step rfl (by simp)
    have hpings : closed.pings addr = s.pings addr :=
      congrArg (fun c => (c.get addr).pings) hcluster
    have hrun := pings_run hk (fun h => absurd h hd) addr (s := closed)
    rw [rounds_of_resting s.resting_close hk, List.length_nil, Nat.zero_mul, Nat.add_zero, hprobed,
      hpings] at hrun
    exact hrun
  · intro s₂
    obtain ⟨hagree, hentries⟩ := hstart.run hab
    have hmoves₁ := run_moves a closed
    rw [hclosed] at hmoves₁
    refine ⟨hagree.clock, fun i hi => ?_, hentries,
      hmoves₁.sameBelow (run_moves b s) hagree.take_eq⟩
    obtain ⟨t, ht₁, ht₂⟩ := hagree.exists_transaction hi
    refine ⟨t, ht₁, ht₂, fun step hc => hagree.answer hi hc, fun step hs => ?_⟩
    obtain ⟨_, _, effect, hlocal⟩ := step_localTo hs s₁.clock t
    obtain ⟨-, hb₁⟩ := hlocal s₁ rfl ht₁
    obtain ⟨-, hb₂⟩ := hlocal s₂ hagree.clock ht₂
    exact ⟨effect, congrArg Books.account hb₁, congrArg Books.account hb₂⟩

/-- A transaction in flight when its node is closed, and closed again. -/
theorem closed_run_in_flight :
    let s := ((fresh ⟨0⟩ 0).run [.build "\x7b\"master\":\x7b\"addr\":\"m:1\"\x7d\x7d",
      .beginThrough ⟨5000000⟩]).2
    let s₁ := ((s.step .close).2.run [.execute 0 "x", .sleep (.ofMillis 3), .close]).2
    let s₂ := (s.run [.execute 0 "x", .sleep (.ofMillis 3)]).2
    (∃ n, s.node = some n) ∧ s₁.step .master = (.failed (.router .masterClosed), s₁) ∧
      (∃ t, s₁.transactions[0]? = some t ∧ s₂.transactions[0]? = some t) ∧
      (s₂.step (.commit 0)).1 = (s₁.step (.commit 0)).1 := by
  intro s s₁ s₂
  have hnode : s.node.isSome = true := by
    unfold s
    decide +kernel
  obtain ⟨n, hn⟩ := Option.isSome_iff_exists.1 hnode
  have hlength : s.transactions.length = 1 := by
    unfold s
    decide +kernel
  have hk : ∀ step ∈ [Step.execute 0 "x", .sleep (.ofMillis 3), .close], step.builds = false := by
    decide
  obtain ⟨-, hshut, hopen, hcloses⟩ := closed_run hn hk
  obtain ⟨-, hsame, -⟩ := hopen [.execute 0 "x", .sleep (.ofMillis 3)]
    (hcloses _ rfl (by simp [Step.holdsBeyond]))
  obtain ⟨t, ht₁, ht₂, hanswer, -⟩ := hsame 0 (by omega)
  exact ⟨⟨n, hn⟩, (hshut (by decide)).1, ⟨t, ht₁, ht₂⟩, hanswer _ rfl⟩

end Session

end ReplicaRouter
