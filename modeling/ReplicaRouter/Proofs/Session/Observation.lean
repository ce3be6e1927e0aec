import ReplicaRouter.Proofs.Session.Independence
import ReplicaRouter.Proofs.Session.Rounds

/-! # Observation

Probes only observe. Two sessions are alike if they differ in nothing but what probes touch: the
pings of servers, counted or refused, the failures reported and when the node probes next.

* `Session.Alike.probing`: a step that probes leaves a session alike to what it was.
* `Session.Alike.step`: any other step is answered alike and keeps them alike.
* `Session.heard_reprobed`: so runs that differ in their probes alone are heard to do the same.
-/

namespace ReplicaRouter

/-- The answer without what it tells of pings. -/
def Answer.unpinged : Answer → Answer
  | .state addr v => .state addr v.unpinged
  | answer => answer

/-- The steps that probe, set what probes find or take what they reported. -/
def Step.isProbing : Step → Bool
  | .check => true
  | .takeFailures => true
  | .ping _ => true
  | .refuse _ .pinging _ => true
  | .happen .probe => true
  | _ => false

def Step.isSleep : Step → Bool
  | .sleep _ => true
  | _ => false

/-! ## Servers -/

/-- A server is its account and its front. -/
theorem Server.unpinged_eq_iff {v v' : Server} :
    v'.unpinged = v.unpinged ↔ v'.account = v.account ∧ v'.front.unpinged = v.front.unpinged := by
  simp only [unpinged, account, front, Server.mk.injEq, Account.mk.injEq]
  constructor
  · rintro ⟨h1, h2, h3, h4, h5, h6, h7, h8, h9, h10⟩
    simp [*]
  · rintro ⟨⟨h1, h2, h3, h4⟩, h5⟩
    simp_all

namespace Cluster

/-- The clusters differ in pings alone. -/
def Alike (c c' : Cluster) : Prop := ∀ addr, (c'.get addr).unpinged = (c.get addr).unpinged

theorem Alike.modify {c c' : Cluster} (h : c.Alike c') (addr : String) {f : Server → Server}
    (hf : ∀ v, (f v).unpinged = (f v.unpinged).unpinged) :
    (c.modify addr f).Alike (c'.modify addr f) := by
  intro a
  rw [get_modify, get_modify]
  split
  · rw [hf, hf (c.get addr), h addr]
  · exact h a

theorem Alike.admitTransaction {c c' : Cluster} (h : c.Alike c') (addr : String) :
    (c'.admitTransaction addr).1 = (c.admitTransaction addr).1 ∧
      (c.admitTransaction addr).2.Alike (c'.admitTransaction addr).2 := by
  have hr : (c'.get addr).unpinged.refusesBegin = (c.get addr).unpinged.refusesBegin :=
    congrArg Server.refusesBegin (h addr)
  replace hr : (c'.get addr).refusesBegin = (c.get addr).refusesBegin := hr
  unfold Cluster.admitTransaction
  rw [hr]
  split
  · exact ⟨rfl, h⟩
  · exact ⟨rfl, h.modify addr fun _ => rfl⟩

theorem Alike.connect {c c' : Cluster} (h : c.Alike c') (dsn : String) :
    (c'.connect dsn).1 = (c.connect dsn).1 ∧ (c.connect dsn).2.Alike (c'.connect dsn).2 := by
  unfold Cluster.connect
  rcases Dsn.address? dsn with _ | addr
  · exact ⟨rfl, h⟩
  have hr : (c'.get addr).unpinged.refusesOpen = (c.get addr).unpinged.refusesOpen :=
    congrArg Server.refusesOpen (h addr)
  replace hr : (c'.get addr).refusesOpen = (c.get addr).refusesOpen := hr
  simp only [hr]
  split
  · exact ⟨rfl, h⟩
  · exact ⟨rfl, h.modify addr fun _ => rfl⟩

end Cluster

/-- When a node probes next does not bear on requests. -/
theorem Node.master?_congr {n n' : Node} (h : n'.unscheduled = n.unscheduled) :
    n'.master? = n.master? :=
  show n'.unscheduled.master? = n.unscheduled.master? from congrArg Node.master? h

/-! ## Sessions -/

namespace Session

/-- The sessions differ in nothing but pings, failures reported and when the node probes next. -/
structure Alike (s s' : Session) : Prop where
  clock : s'.clock = s.clock
  offset : s'.offset = s.offset
  generator : s'.generator = s.generator
  transactions : s'.transactions = s.transactions
  node : s'.node.map Node.unscheduled = s.node.map Node.unscheduled
  servers : s.cluster.Alike s'.cluster

theorem Alike.refl (s : Session) : s.Alike s := ⟨rfl, rfl, rfl, rfl, rfl, fun _ => rfl⟩

theorem Alike.symm {s s' : Session} (h : s.Alike s') : s'.Alike s :=
  ⟨h.clock.symm, h.offset.symm, h.generator.symm, h.transactions.symm, h.node.symm,
    fun addr => (h.servers addr).symm⟩

theorem Alike.trans {s s' s'' : Session} (h : s.Alike s') (h' : s'.Alike s'') : s.Alike s'' :=
  ⟨h'.clock.trans h.clock, h'.offset.trans h.offset, h'.generator.trans h.generator,
    h'.transactions.trans h.transactions, h'.node.trans h.node,
    fun addr => (h'.servers addr).trans (h.servers addr)⟩

/-- To be alike is to have the same books and the same outline. -/
theorem alike_iff {s s' : Session} : s.Alike s' ↔ s'.books = s.books ∧ s'.outline = s.outline := by
  constructor
  · rintro ⟨hnow, hoffset, hgenerator, htransactions, hnode, hservers⟩
    have h := fun addr => Server.unpinged_eq_iff.1 (hservers addr)
    refine ⟨?_, ?_⟩
    · rw [books, books, Books.mk.injEq]
      exact ⟨hnow, htransactions, funext fun addr => (h addr).1⟩
    · simp only [outline, premises, Premises.outline, Outline.mk.injEq]
      exact ⟨hoffset, hgenerator, hnode, funext fun addr => (h addr).2⟩
  · rintro ⟨hbooks, houtline⟩
    refine ⟨congrArg Books.clock hbooks, congrArg Outline.offset houtline,
      congrArg Outline.generator houtline, congrArg Books.transactions hbooks,
      congrArg Outline.node houtline, fun addr => Server.unpinged_eq_iff.2 ⟨?_, ?_⟩⟩
    · exact congrFun (congrArg Books.account hbooks) addr
    · exact congrFun (congrArg Outline.front houtline) addr

/-! ## Probes -/

/-- A step that probes changes nothing else. -/
theorem Alike.probing (s : Session) {step : Step} (h : step.isProbing = true) :
    s.Alike (s.step step).2 := by
  cases step with
  | check =>
    simp only [Session.step, onNode]
    split
    · exact .refl s
    · rename_i n hn
      exact ⟨rfl, rfl, rfl, rfl, rfl, s.cluster.unpinged_pingAll n.targets⟩
  | takeFailures => exact ⟨rfl, rfl, rfl, rfl, rfl, fun _ => rfl⟩
  | ping server => exact ⟨rfl, rfl, rfl, rfl, rfl, s.cluster.unpinged_ping server⟩
  | refuse server what on =>
    cases what with
    | pinging =>
      exact ⟨rfl, rfl, rfl, rfl, rfl, fun addr =>
        s.cluster.get_modify_keeps Server.unpinged server addr fun _ => rfl⟩
    | opening | beginning => cases h
  | happen e =>
    cases e with
    | probe =>
      show s.Alike (s.happen .probe)
      rw [happen_probe]
      split
      · exact alike_iff.2 ⟨s.books_handle_probe, s.outline_handle .probe⟩
      · exact .refl s
    | expire => cases h
  | _ => cases h

/-! ## Other steps -/

theorem outline_call (s : Session) {i : Nat} {step : Step} (h : step.subject? = some i) :
    (s.step step).2.outline = s.outline := by
  cases ha : step.isAside with
  | false => exact s.outline_step ha
  | true =>
    cases step with
    | left | isLive => rw [step_of_isLook s rfl]
    | happen | execute | lend | giveBack | commit | rollBack | disown => cases ha
    | _ => cases h

section
variable {s s' : Session}

theorem Alike.beginOn (h : s.Alike s') (server : String) (runtime : Duration) (expires : Bool) :
    (s'.beginOn server runtime expires).1 = (s.beginOn server runtime expires).1 ∧
      (s.beginOn server runtime expires).2.Alike (s'.beginOn server runtime expires).2 := by
  obtain ⟨hanswer, hservers⟩ := h.servers.admitTransaction server
  unfold Session.beginOn
  rcases hc : s.cluster.admitTransaction server with ⟨_ | e, c⟩ <;>
    rcases hc' : s'.cluster.admitTransaction server with ⟨_ | e', c'⟩ <;>
    rw [hc, hc'] at hanswer hservers
  · refine ⟨rfl, h.clock, h.offset, h.generator, ?_, h.node, hservers⟩
    simp only [h.transactions, h.clock]
  · cases hanswer
  · cases hanswer
  · exact ⟨hanswer, h.clock, h.offset, h.generator, h.transactions, h.node, hservers⟩

/-- What two alike sessions answer at their nodes, alike if the nodes answer alike. -/
theorem Alike.onNode (h : s.Alike s') {f f' : Node → Answer × Session}
    (hf : ∀ n n', s.node = some n → s'.node = some n' → n'.unscheduled = n.unscheduled →
      (f' n').1.unpinged = (f n).1.unpinged ∧ (f n).2.Alike (f' n').2) :
    (s'.onNode f').1.unpinged = (s.onNode f).1.unpinged ∧
      (s.onNode f).2.Alike (s'.onNode f').2 := by
  have hnode := h.node
  unfold Session.onNode
  rcases hn : s.node with _ | n <;> rcases hn' : s'.node with _ | n' <;> rw [hn, hn'] at hnode
  · exact ⟨rfl, h⟩
  · cases hnode
  · cases hnode
  · exact hf n n' hn hn' (Option.some.inj hnode)

/-- So is what they read off their nodes, unless it is when the node probes next. -/
theorem Alike.read (h : s.Alike s') {f : Node → Answer} (hf : ∀ n : Node, f n.unscheduled = f n) :
    (s'.onNode fun n => (f n, s')).1.unpinged = (s.onNode fun n => (f n, s)).1.unpinged ∧
      (s.onNode fun n => (f n, s)).2.Alike (s'.onNode fun n => (f n, s')).2 := by
  refine h.onNode fun n n' _ _ hn => ⟨?_, h⟩
  show (f n').unpinged = (f n).unpinged
  rw [← hf n', hn, hf n]

theorem Alike.pick (h : s.Alike s') {n n' : Node} (hn : n'.unscheduled = n.unscheduled) :
    (s'.pick n').1 = (s.pick n).1 ∧ (s.pick n).2.Alike (s'.pick n').2 := by
  obtain ⟨settings, masterServer, replicas, rotation, plan, closed, nextProbe, period_pos⟩ := n
  obtain ⟨settings', masterServer', replicas', rotation', plan', closed', nextProbe', pos'⟩ := n'
  simp only [Node.unscheduled, Node.mk.injEq] at hn
  obtain ⟨rfl, rfl, rfl, rfl, rfl, rfl, -⟩ := hn
  simp only [Session.pick, Node.replica?]
  cases closed' with
  | true => exact ⟨rfl, h⟩
  | false =>
    rcases rotation'.next? with _ | ⟨i, next⟩
    · exact ⟨rfl, h⟩
    · simp only [Bool.false_eq_true, if_false]
      rcases replicas'[i]? with _ | r
      · exact ⟨rfl, h⟩
      · exact ⟨rfl, h.clock, h.offset, h.generator, h.transactions, rfl, h.servers⟩

theorem Alike.picks : ∀ (count : Nat) {s s' : Session}, s.Alike s' →
    (picks count s').1 = (picks count s).1 ∧ (picks count s).2.Alike (picks count s').2
  | 0, _, _, h => ⟨rfl, h⟩
  | count + 1, s, s', h => by
    have hnode := h.node
    unfold Session.picks
    rcases hn : s.node with _ | n <;> rcases hn' : s'.node with _ | n' <;> rw [hn, hn'] at hnode
    · exact ⟨rfl, h⟩
    · cases hnode
    · cases hnode
    · obtain ⟨hpick, hnext⟩ := h.pick (Option.some.inj hnode)
      obtain ⟨hrest, hlast⟩ := Alike.picks count hnext
      exact ⟨congrArg₂ List.cons hpick hrest, hlast⟩

/-- Calls on transactions are answered alike, whatever probes do. -/
theorem Alike.call (h : s.Alike s') {i : Nat} {step : Step} (hc : step.subject? = some i) :
    (s'.step step).1 = (s.step step).1 ∧ (s.step step).2.Alike (s'.step step).2 := by
  rcases ht : s.transactions[i]? with _ | t
  · have ht' : s'.transactions[i]? = none := by rw [h.transactions, ht]
    rw [step_of_none ht hc, step_of_none ht' hc]
    exact ⟨rfl, h⟩
  · have ht' : s'.transactions[i]? = some t := by rw [h.transactions, ht]
    obtain ⟨answer, t', f, hlocal⟩ := step_localTo hc s.clock t
    obtain ⟨ha, hb⟩ := hlocal s rfl ht
    obtain ⟨ha', hb'⟩ := hlocal s' h.clock ht'
    obtain ⟨hbooks, houtline⟩ := alike_iff.1 h
    have haccounts : s'.cluster.accounts = s.cluster.accounts := congrArg Books.account hbooks
    refine ⟨ha'.trans ha.symm, alike_iff.2 ⟨?_, ?_⟩⟩
    · rw [hb, hb', h.transactions, haccounts]
    · rw [outline_call s hc, outline_call s' hc, houtline]

theorem Alike.sleep (h : s.Alike s') (time : Duration) : (s.sleep time).Alike (s'.sleep time) := by
  obtain ⟨hbooks, houtline⟩ := alike_iff.1 h
  refine alike_iff.2 ⟨books_sleep_congr hbooks time, ?_⟩
  rw [outline_sleep, outline_sleep, houtline]

/-- A step that neither probes nor builds nor holds is answered alike and keeps sessions alike. -/
theorem Alike.simpleStep (h : s.Alike s') {step : Step} (hb : step.builds = false)
    (hp : step.isProbing = false) (hh : step.isHold = false) :
    (s'.step step).1.unpinged = (s.step step).1.unpinged ∧
      (s.step step).2.Alike (s'.step step).2 := by
  have call : ∀ {i}, step.subject? = some i → (s'.step step).1.unpinged = (s.step step).1.unpinged ∧
      (s.step step).2.Alike (s'.step step).2 := by
    intro i hc
    obtain ⟨hanswer, hnext⟩ := h.call hc
    exact ⟨congrArg Answer.unpinged hanswer, hnext⟩
  cases step with
  | sleep time => exact ⟨rfl, h.sleep time⟩
  | settle => exact ⟨rfl, h.sleep ⟨0⟩⟩
  | jump time =>
    exact ⟨rfl, congrArg (· + time.nanos) h.clock, h.offset, h.generator, h.transactions, h.node,
      h.servers⟩
  | happen e =>
    cases e with
    | probe => cases hp
    | expire i => exact call rfl
  | refuse server what on =>
    refine ⟨rfl, h.clock, h.offset, h.generator, h.transactions, h.node, ?_⟩
    cases what with
    | pinging => cases hp
    | opening => exact h.servers.modify server fun _ => rfl
    | beginning => exact h.servers.modify server fun _ => rfl
  | inspect server =>
    exact ⟨congrArg (Answer.state server) (h.servers server), h⟩
  | connect dsn =>
    obtain ⟨hanswer, hservers⟩ := h.servers.connect dsn
    simp only [Session.step]
    rcases hc : s.cluster.connect dsn with ⟨_ | _, c⟩ <;>
      rcases hc' : s'.cluster.connect dsn with ⟨_ | _, c'⟩ <;> rw [hc, hc'] at hanswer hservers <;>
      cases hanswer <;>
      exact ⟨rfl, h.clock, h.offset, h.generator, h.transactions, h.node, hservers⟩
  | ping => cases hp
  | tune server pool =>
    exact ⟨rfl, h.clock, h.offset, h.generator, h.transactions, h.node,
      h.servers.modify server fun _ => rfl⟩
  | beginOn server runtime =>
    obtain ⟨hanswer, hnext⟩ := h.beginOn server runtime false
    simp only [Session.step]
    rcases hc : s.beginOn server runtime false with ⟨_ | _, s₁⟩ <;>
      rcases hc' : s'.beginOn server runtime false with ⟨_ | _, s₁'⟩ <;>
      rw [hc, hc'] at hanswer hnext <;> cases hanswer <;> exact ⟨rfl, hnext⟩
  | build => cases hb
  | drop => exact ⟨rfl, h.clock, h.offset, h.generator, h.transactions, rfl, h.servers⟩
  | close =>
    refine h.onNode fun n n' _ _ hn => ⟨rfl, h.clock, h.offset, h.generator, h.transactions, ?_,
      h.servers⟩
    exact congrArg (fun n => some n.close) hn
  | isClosed => exact h.read (f := fun n => .flag n.closed) fun _ => rfl
  | settings => exact h.read (f := fun n => .settings n.settings) fun _ => rfl
  | queue => exact h.read (f := fun n => .queue n.rotation.queue) fun _ => rfl
  | master =>
    refine h.onNode fun n n' _ _ hn => ?_
    rw [Node.master?_congr hn]
    split <;> exact ⟨rfl, h⟩
  | replica =>
    refine h.onNode fun n n' _ _ hn => ?_
    obtain ⟨hanswer, hnext⟩ := h.pick hn
    rcases hc : s.pick n with ⟨_ | _, s₁⟩ <;> rcases hc' : s'.pick n' with ⟨_ | _, s₁'⟩ <;>
      rw [hc, hc'] at hanswer hnext <;> cases hanswer <;> exact ⟨rfl, hnext⟩
  | replicas count =>
    obtain ⟨hanswer, hnext⟩ := Alike.picks count h
    exact ⟨congrArg Answer.servers hanswer, hnext⟩
  | tableName table keys =>
    refine h.onNode fun n n' _ _ hn => ?_
    have hplan : n'.unscheduled.plan = n.unscheduled.plan := congrArg Node.plan hn
    replace hplan : n'.plan = n.plan := hplan
    rw [hplan, h.offset]
    split <;> exact ⟨rfl, h⟩
  | strategy table => exact h.read (f := fun n => .strategy (n.plan.find? table)) fun _ => rfl
  | check => cases hp
  | takeFailures => cases hp
  | beginThrough requested =>
    refine h.onNode fun n n' _ _ hn => ?_
    simp only [beginThrough, Node.master?_congr hn]
    rcases n.master? with err | server
    · exact ⟨rfl, h⟩
    obtain ⟨hanswer, hnext⟩ := h.beginOn server requested.granted true
    simp only
    rcases hc : s.beginOn server requested.granted true with ⟨_ | _, s₁⟩ <;>
      rcases hc' : s'.beginOn server requested.granted true with ⟨_ | _, s₁'⟩ <;>
      rw [hc, hc'] at hanswer hnext <;> cases hanswer <;> exact ⟨rfl, hnext⟩
  | hold => cases hh
  | left | isLive | execute | lend | giveBack | commit | rollBack | disown => exact call rfl

/-- A step that neither probes nor builds is answered alike and keeps sessions alike. -/
theorem Alike.step (h : s.Alike s') {step : Step} (hb : step.builds = false)
    (hp : step.isProbing = false) :
    (s'.step step).1.unpinged = (s.step step).1.unpinged ∧
      (s.step step).2.Alike (s'.step step).2 := by
  cases hh : step.isHold with
  | false => exact h.simpleStep hb hp hh
  | true =>
    cases step with
    | hold i before time after =>
      have hparts : ∀ step ∈ Step.partsOfHold i before time after, ∀ s s' : Session, s.Alike s' →
          (s'.step step).1 = (s.step step).1 ∧ (s.step step).2.Alike (s'.step step).2 := by
        apply Step.forall_partsOfHold
        · exact fun s s' h => h.call rfl
        · exact fun _ s s' h => h.call rfl
        · exact fun s s' h => ⟨rfl, h.sleep time⟩
        · exact fun s s' h => h.call rfl
        · exact fun s s' h => ⟨rfl, h.sleep ⟨0⟩⟩
      obtain ⟨hanswer, hnext⟩ := hold_congr hparts h
      exact ⟨congrArg Answer.unpinged hanswer, hnext⟩
    | _ => cases hh

end

/-- A sleep in two parts comes to the same, except for when the node probes. -/
theorem alike_sleep_add (s : Session) (x y : Duration) :
    (s.sleep (x + y)).Alike ((s.sleep x).sleep y) := by
  have hnow : ((s.sleep x).sleep y).clock = (s.sleep (x + y)).clock := by
    rw [clock_sleep, clock_sleep, clock_sleep, Duration.nanos_add, Nat.add_assoc]
  have htransactions : ((s.sleep x).sleep y).transactions = (s.sleep (x + y)).transactions := by
    have hlimit : (s.sleep x).clock + y.nanos = s.clock + (x + y).nanos := by
      rw [clock_sleep, Duration.nanos_add, Nat.add_assoc]
    show ((s.sleep x).advanceTo ((s.sleep x).clock + y.nanos)).transactions =
      (s.advanceTo (s.clock + (x + y).nanos)).transactions
    rw [hlimit, transactions_advanceTo, transactions_advanceTo, sleep, transactions_advanceTo,
      List.map_map]
    apply List.map_congr_left
    intro t _
    exact t.upTo_upTo (by rw [Duration.nanos_add]; omega)
  have haccount : ((s.sleep x).sleep y).books.account = (s.sleep (x + y)).books.account :=
    (s.sleep_moves (x + y)).account_congr ((s.sleep_moves x).trans ((s.sleep x).sleep_moves y))
      rfl rfl htransactions
  refine alike_iff.2 ⟨?_, ?_⟩
  · rw [books, books, Books.mk.injEq]
    exact ⟨hnow, htransactions, haccount⟩
  · rw [outline_sleep, outline_sleep, outline_sleep]

/-! ## Runs -/

/-- What of a run is compared: its steps with their answers, without those that probe, without what
they tell of pings, and without the sleeps, which answer nothing. -/
def heard : Session → List Step → List (Step × Answer)
  | _, [] => []
  | s, step :: rest =>
    let (answer, s') := s.step step
    (if step.isProbing || step.isSleep then [] else [(step, answer.unpinged)]) ++ s'.heard rest

/-- Alike sessions are heard to do the same in the same run. -/
theorem Alike.run : ∀ (steps : List Step) {s s' : Session}, s.Alike s' →
    (∀ step ∈ steps, step.builds = false) →
    s'.heard steps = s.heard steps ∧ (s.run steps).2.Alike (s'.run steps).2
  | [], _, _, h, _ => ⟨rfl, h⟩
  | step :: rest, s, s', h, hb => by
    have hrest := fun x hx => hb x (.tail step hx)
    cases hp : step.isProbing with
    | true =>
      have hnext : (s.step step).2.Alike (s'.step step).2 :=
        ((Alike.probing s hp).symm.trans h).trans (Alike.probing s' hp)
      obtain ⟨hheard, hlast⟩ := Alike.run rest hnext hrest
      refine ⟨?_, hlast⟩
      simp only [heard, hp, Bool.true_or, if_true, hheard]
    | false =>
      obtain ⟨hanswer, hnext⟩ := h.step (hb step (.head _)) hp
      obtain ⟨hheard, hlast⟩ := Alike.run rest hnext hrest
      refine ⟨?_, hlast⟩
      simp only [heard, hanswer, hheard]

end Session

/-- Lists of steps that differ in their probes alone: in where steps that probe stand, and in where
a sleep is cut in two to make room for them. -/
inductive Reprobed : List Step → List Step → Prop
  | nil : Reprobed [] []
  | cons {a b : List Step} {step : Step} (hp : step.isProbing = false) (h : Reprobed a b) :
      Reprobed (step :: a) (step :: b)
  | left {a b : List Step} {step : Step} (hp : step.isProbing = true) (h : Reprobed a b) :
      Reprobed (step :: a) b
  | right {a b : List Step} {step : Step} (hp : step.isProbing = true) (h : Reprobed a b) :
      Reprobed a (step :: b)
  | cutLeft {a b : List Step} (x y : Duration) (h : Reprobed (.sleep x :: .sleep y :: a) b) :
      Reprobed (.sleep (x + y) :: a) b
  | cutRight {a b : List Step} (x y : Duration) (h : Reprobed a (.sleep x :: .sleep y :: b)) :
      Reprobed a (.sleep (x + y) :: b)

namespace Session

/-- A run in which a sleep is cut in two is heard to do the same. -/
theorem heard_sleep_add (s : Session) (x y : Duration) {rest : List Step}
    (hb : ∀ step ∈ rest, step.builds = false) :
    s.heard (.sleep x :: .sleep y :: rest) = s.heard (.sleep (x + y) :: rest) ∧
      (s.run (.sleep (x + y) :: rest)).2.Alike (s.run (.sleep x :: .sleep y :: rest)).2 :=
  Alike.run rest (s.alike_sleep_add x y) hb

/-- **Probes only observe.** Whatever probes stand in a run, whenever they happen, whatever they
find and whatever is done with what they report, every other step is answered the same, and in the
end the servers differ in their pings alone and the node in when it probes next. -/
theorem heard_reprobed {a b : List Step} (hab : Reprobed a b) {s s' : Session} (h : s.Alike s')
    (ha : ∀ step ∈ a, step.builds = false) (hb : ∀ step ∈ b, step.builds = false) :
    s'.heard b = s.heard a ∧ (s.run a).2.Alike (s'.run b).2 := by
  induction hab generalizing s s' with
  | nil => exact ⟨rfl, h⟩
  | @cons a b step hp hab ih =>
    obtain ⟨hanswer, hnext⟩ := h.step (ha step (.head _)) hp
    obtain ⟨hheard, hlast⟩ := ih hnext (fun x hx => ha x (.tail _ hx)) fun x hx => hb x (.tail _ hx)
    refine ⟨?_, hlast⟩
    simp only [heard, hanswer, hheard]
  | @left a b step hp hab ih =>
    obtain ⟨hheard, hlast⟩ := ih ((Alike.probing s hp).symm.trans h) (fun x hx => ha x (.tail _ hx))
      hb
    refine ⟨?_, hlast⟩
    simp only [heard, hp, Bool.true_or, if_true, List.nil_append, hheard]
  | @right a b step hp hab ih =>
    obtain ⟨hheard, hlast⟩ := ih (h.trans (Alike.probing s' hp)) ha fun x hx => hb x (.tail _ hx)
    refine ⟨?_, hlast⟩
    simp only [heard, hp, Bool.true_or, if_true, List.nil_append, hheard]
  | @cutLeft a b x y hab ih =>
    have ha' : ∀ step ∈ a, step.builds = false := fun step hm => ha step (.tail _ hm)
    obtain ⟨hcut, hcutLast⟩ := s.heard_sleep_add x y ha'
    obtain ⟨hheard, hlast⟩ := ih h
      (List.forall_mem_cons.2 ⟨rfl, List.forall_mem_cons.2 ⟨rfl, ha'⟩⟩) hb
    exact ⟨hheard.trans hcut, hcutLast.trans hlast⟩
  | @cutRight a b x y hab ih =>
    have hb' : ∀ step ∈ b, step.builds = false := fun step hm => hb step (.tail _ hm)
    obtain ⟨hcut, hcutLast⟩ := s'.heard_sleep_add x y hb'
    obtain ⟨hheard, hlast⟩ := ih h ha
      (List.forall_mem_cons.2 ⟨rfl, List.forall_mem_cons.2 ⟨rfl, hb'⟩⟩)
    exact ⟨hcut.symm.trans hheard, hlast.trans hcutLast.symm⟩

/-- A server that answers no ping, with checks and a round in between. -/
theorem heard_reprobed_refusing :
    let s := ((fresh ⟨0⟩ 0).run [.build "\x7b\"master\":\x7b\"addr\":\"m:1\"\x7d\x7d"]).2
    let b := [Step.refuse "m:1" .pinging true, .beginThrough ⟨5000000⟩, .check, .execute 0 "x",
      .happen .probe, .commit 0, .check]
    s.heard b = [(.beginThrough ⟨5000000⟩, .begun 5000000), (.execute 0 "x", .done),
        (.commit 0, .done)] ∧
      (s.run [.sleep ⟨30500000⟩]).2.Alike
        (s.run [.sleep ⟨10000000⟩, .check, .sleep ⟨20500000⟩]).2 := by
  intro s b
  let a := [Step.beginThrough ⟨5000000⟩, .execute 0 "x", .commit 0]
  have hab : Reprobed a b :=
    .right rfl (.cons rfl (.right rfl (.cons rfl (.right rfl (.cons rfl (.right rfl .nil))))))
  obtain ⟨hheard, -⟩ := heard_reprobed hab (.refl s) (by decide) (by decide)
  have hcut : Reprobed [.sleep ⟨30500000⟩] [.sleep ⟨10000000⟩, .check, .sleep ⟨20500000⟩] :=
    .cutLeft ⟨10000000⟩ ⟨20500000⟩ (.cons rfl (.right rfl (.cons rfl .nil)))
  obtain ⟨-, halike⟩ := heard_reprobed hcut (.refl s) (by decide) (by decide)
  have hanswers : s.heard a = [(.beginThrough ⟨5000000⟩, .begun 5000000), (.execute 0 "x", .done),
      (.commit 0, .done)] := by
    unfold s a
    decide +kernel
  exact ⟨hheard.trans hanswers, halike⟩

end Session

end ReplicaRouter
