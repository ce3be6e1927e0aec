import ReplicaRouter.Proofs.Session.StepMoves

/-! # Counters

A transaction is finished once, and counts at most once.

* `Moves.balance`: a server's counters grow by what each transaction on it comes to count for
  (`Transaction.commits`, `Transaction.rollbacks`), so in a reachable session they are its sums
  (`Session.tally_run`).
* `Transaction.Timely`: only a deadline that has passed refuses a commit, ends a transaction or
  waits for its connection.
* `Session.step_of_ending`: what the owner hears of the call that ends a transaction, and what its
  server counts for it.
* `Session.step_of_finished`: a finished transaction answers every call as closed, and the call
  changes nothing at all.
* `Session.finished_once` puts these together for every reachable session.
-/

namespace ReplicaRouter

/-- What a transaction counts for among its server's commits. -/
def Transaction.commits (t : Transaction) : Nat :=
  if t.phase = .finished .committed then 1 else 0

/-- What a transaction counts for among its server's rollbacks. -/
def Transaction.rollbacks (t : Transaction) : Nat :=
  if t.phase = .finished .rolledBack ∨ t.phase = .finished .expired then 1 else 0

/-- Nothing has consumed the transaction, or a late commit has. -/
def Transaction.isUncounted (t : Transaction) : Bool :=
  t.isLive || t.phase = .finished .refused

def onServer (addr : String) (l : List Transaction) : List Transaction :=
  l.filter fun t => t.server = addr

/-- The sum of what the transactions on a server count for. -/
def total (f : Transaction → Nat) (addr : String) (l : List Transaction) : Nat :=
  ((onServer addr l).map f).sum

theorem total_append (f : Transaction → Nat) (addr : String) (l l' : List Transaction) :
    total f addr (l ++ l') = total f addr l + total f addr l' := by
  simp [total, onServer]

theorem total_concat (f : Transaction → Nat) (addr : String) (l : List Transaction)
    (t : Transaction) :
    total f addr (l ++ [t]) = total f addr l + if t.server = addr then f t else 0 := by
  rw [total_append]
  unfold total onServer
  by_cases h : t.server = addr <;> simp [h]

theorem total_set (f : Transaction → Nat) (addr : String) {t t' : Transaction}
    (hs : t'.server = t.server) :
    ∀ {l : List Transaction} {i : Nat}, l[i]? = some t →
      total f addr (l.set i t') + (if t.server = addr then f t else 0) =
        total f addr l + if t.server = addr then f t' else 0
  | [], _, h => by simp at h
  | u :: l, 0, h => by
    obtain rfl : u = t := by simpa using h
    unfold total onServer
    by_cases ha : u.server = addr
    · simp only [List.set_cons_zero, List.filter_cons, hs, ha, decide_true, if_true, List.map_cons,
        List.sum_cons]
      omega
    · simp [hs, ha]
  | u :: l, i + 1, h => by
    have ih := total_set f addr hs (l := l) (i := i) (by simpa using h)
    unfold total onServer at ih ⊢
    by_cases ha : u.server = addr
    · simp only [List.set_cons_succ, List.filter_cons, ha, decide_true, if_true, List.map_cons,
        List.sum_cons]
      omega
    · simpa [List.set_cons_succ, ha] using ih

/-! ## The counters -/

/-- What a server's counters have grown by is what the transactions on it have come to count for
more. -/
def Balance (b b' : Books) : Prop :=
  ∀ addr,
    (b'.account addr).begins + total (fun _ => 1) addr b.transactions =
      (b.account addr).begins + total (fun _ => 1) addr b'.transactions ∧
    (b'.account addr).commits + total Transaction.commits addr b.transactions =
      (b.account addr).commits + total Transaction.commits addr b'.transactions ∧
    (b'.account addr).rollbacks + total Transaction.rollbacks addr b.transactions =
      (b.account addr).rollbacks + total Transaction.rollbacks addr b'.transactions

/-- A change counts for the transaction exactly what it counts for its server. -/
theorem Change.counts {now : Nat} {t t' : Transaction} {deed : Option Deed}
    {f : Account → Account} (hc : Change now t deed t' f) (a : Account) :
    (f a).begins = a.begins ∧ (f a).commits + t.commits = a.commits + t'.commits ∧
      (f a).rollbacks + t.rollbacks = a.rollbacks + t'.rollbacks := by
  cases hc <;>
    simp_all [Transaction.commits, Transaction.rollbacks, Ending.effect, Account.commit,
      Account.rollBack]

theorem Balance.refl (b : Books) : Balance b b := fun _ => ⟨rfl, rfl, rfl⟩

theorem Balance.trans {b b' b'' : Books} (h : Balance b b') (h' : Balance b' b'') :
    Balance b b'' := by
  intro addr
  obtain ⟨hb, hc, hr⟩ := h addr
  obtain ⟨hb', hc', hr'⟩ := h' addr
  omega

theorem Balance.move {b b' : Books} {e : List Entry} (hm : Move b e b') : Balance b b' := by
  intro addr
  cases hm with
  | pass => exact ⟨rfl, rfl, rfl⟩
  | enter =>
    simp only [total_concat, recordAt]
    split
    · rename_i h
      simp only [h, if_true, Account.beginOne, Transaction.commits, Transaction.rollbacks]
      simp
      omega
    · rename_i h
      simp [Ne.symm h]
  | @change i t t' deed f ht hch =>
    have hs := hch.later.server
    have tb := total_set (fun _ => 1) addr hs ht
    have tc := total_set Transaction.commits addr hs ht
    have tr := total_set Transaction.rollbacks addr hs ht
    obtain ⟨fb, fc, fr⟩ := hch.counts (b.account addr)
    simp only [recordAt]
    by_cases ha : addr = t.server
    · simp only [ha, if_true] at *
      omega
    · simp only [ha, Ne.symm ha, if_false] at *
      omega

theorem Moves.balance {b b' : Books} {h : List Entry} (hm : Moves b h b') : Balance b b' :=
  hm.preserve (P := Balance b) (.refl b) fun hb hs => hb.trans (.move hs)

/-! ## What the deadline has to do with it -/

/-- A commit is refused, and a deadline acts or waits, only when it has passed. -/
structure Transaction.Timely (now : Nat) (t : Transaction) : Prop where
  refused : t.phase = .finished .refused → t.deadline.passed now = true
  expired : t.phase = .finished .expired → t.expires = true ∧ t.deadline.passed now = true
  awaited : ∀ pending, t.phase = .live pending .awaited →
    t.expires = true ∧ t.deadline.passed now = true

theorem Transaction.Timely.mono {now now' : Nat} {t : Transaction} (h : t.Timely now)
    (hn : now ≤ now') : t.Timely now' where
  refused hp := Deadline.passed_mono hn (h.refused hp)
  expired hp := ⟨(h.expired hp).1, Deadline.passed_mono hn (h.expired hp).2⟩
  awaited p hp := ⟨(h.awaited p hp).1, Deadline.passed_mono hn (h.awaited p hp).2⟩

theorem Change.timely {now : Nat} {t t' : Transaction} {deed : Option Deed}
    {f : Account → Account} (hc : Change now t deed t' f) (h : t.Timely now) : t'.Timely now := by
  cases hc with
  | @execute pending loan statement ht hd =>
    refine ⟨nofun, nofun, fun p hp => ?_⟩
    obtain ⟨-, rfl⟩ : pending ++ [statement] = p ∧ loan = .awaited := by simpa using hp
    exact h.awaited pending ht
  | lend ho ht => exact ⟨nofun, nofun, nofun⟩
  | giveBack ht => exact ⟨nofun, nofun, nofun⟩
  | await ht he hd => exact ⟨nofun, nofun, fun _ _ => ⟨he, hd⟩⟩
  | commit ht hd => exact ⟨nofun, nofun, nofun⟩
  | refuse ht hd => exact ⟨fun _ => hd, nofun, nofun⟩
  | rollBack ht => exact ⟨nofun, nofun, nofun⟩
  | expire ht he hd => exact ⟨nofun, fun _ => ⟨he, hd⟩, nofun⟩
  | expireLate ht => exact ⟨nofun, fun _ => h.awaited _ ht, nofun⟩
  | disown hl => exact ⟨h.refused, h.expired, h.awaited⟩

/-! ## Calls -/

/-- A call on the transaction at a place, by its owner or a borrower, or its deadline's. -/
def Step.callsOn (id : Nat) : Step → Bool
  | .left i => i = id
  | .isLive i => i = id
  | .execute i _ => i = id
  | .lend i => i = id
  | .giveBack i => i = id
  | .hold i _ _ _ => i = id
  | .commit i => i = id
  | .rollBack i => i = id
  | .happen e => e = .expire id
  | _ => false

/-- A call for the connection of the transaction at a place or for its end. -/
def Step.demands (id : Nat) : Step → Bool
  | .execute i _ => i = id
  | .lend i => i = id
  | .hold i _ _ _ => i = id
  | .commit i => i = id
  | .rollBack i => i = id
  | _ => false

/-! ## Calls that finish -/

/-- How a call of its owner ends the transaction at a place, in time or late. -/
def Step.ending? (id : Nat) (late : Bool) : Step → Option Ending
  | .commit i => if i = id then some (if late then .refused else .committed) else none
  | .rollBack i => if i = id then some .rolledBack else none
  | _ => none

theorem Step.ending?_eq_some {id : Nat} {late : Bool} {step : Step} {ending : Ending} :
    step.ending? id late = some ending ↔
      step = .commit id ∧ ending = (if late then .refused else .committed) ∨
      step = .rollBack id ∧ ending = .rolledBack := by
  cases step <;> simp [ending?, eq_comm]

/-- What its owner hears of a call that ends a transaction so. -/
def Transaction.verdict (t : Transaction) (ending : Ending) : Answer :=
  if ending = .refused then .failed (t.refusal .deadlineExceeded) else .done

namespace Session

theorem books_finish {s : Session} {id : Nat} {t : Transaction} {pending : List String}
    {loan : Loan} (ht : s.transactions[id]? = some t) (hp : t.phase = .live pending loan)
    (ending : Ending) :
    (s.finish id ending).books =
      { clock := s.clock
        transactions := s.transactions.set id { t with phase := .finished ending }
        account := recordAt t.server (ending.effect pending) s.cluster.accounts } := by
  obtain ⟨h₁, h₂⟩ := Transaction.accounts_finish hp s.cluster ending
  simp only [finish, change, ht, books, put]
  rw [h₁, h₂]

section
variable {s : Session} {id : Nat} {t : Transaction} {step : Step} {ending : Ending}
  (ht : s.transactions[id]? = some t)
  (he : step.ending? id (t.deadline.passed s.clock) = some ending)
include ht he

/-- Such a call ends a live transaction whose connection is home, and the answer tells how. -/
theorem step_of_ending {pending : List String} (ho : t.owned = true)
    (hp : t.phase = .live pending .home) :
    s.step step = (t.verdict ending, s.finish id ending) := by
  have htake := onOwner_of_home ht ho (isLent_of_home hp)
  obtain ⟨rfl, rfl⟩ | ⟨rfl, rfl⟩ := Step.ending?_eq_some.1 he
  · simp only [Session.step, htake, commit, Transaction.commitFault?, hp]
    cases t.deadline.passed s.clock <;> rfl
  · simp only [Session.step, htake, rollBack, Transaction.rollBackFault?, hp]
    rfl

/-- Nobody ends a transaction whose owner is gone or whose connection is lent. -/
theorem step_of_unavailable (hn : t.owned = false ∨ t.isLent = true) :
    s.step step = (.nothing, s) := by
  obtain ⟨rfl, -⟩ | ⟨rfl, -⟩ := Step.ending?_eq_some.1 he <;> exact onOwner_of_away ht hn _

end

/-! ## Finished transactions -/

section
variable {s : Session} {id : Nat} {t : Transaction} {ending : Ending}
  (ht : s.transactions[id]? = some t) (hp : t.phase = .finished ending)
include ht hp

theorem not_expire_of_finished {e : Nat × Event} (he : e ∈ s.events) : e.2 ≠ .expire id := by
  intro h
  rcases mem_events.1 he with ⟨hpr, -⟩ | ⟨i, u, hi, hu, hw⟩
  · rw [h] at hpr; cases hpr
  · rw [h] at hi
    cases hi
    rw [ht] at hu
    cases hu
    simp only [Transaction.wake?, hp] at hw
    cases hw

theorem onOwner_of_finished (f : Transaction → Answer × Session) :
    s.onOwner id f = s.onTransaction id f := by
  simp only [onOwner, onTransaction, ht, Transaction.isLent, hp, Bool.false_eq_true, if_false]

theorem finish_of_finished (e : Ending) : s.finish id e = s :=
  change_self ht (by simp only [Transaction.finish, hp])

/-- Whoever asks for the connection or the end of a finished transaction hears that it is
closed. -/
theorem demand_of_finished {step : Step} (hd : step.demands id = true) :
    s.step step = (if t.owned then .failed (.router .transactionClosed) else .nothing, s) := by
  have key : ∀ f : Transaction → Answer × Session,
      f t = (.failed (.router .transactionClosed), s) → s.onTransaction id f =
        (if t.owned then .failed (.router .transactionClosed) else .nothing, s) := by
    intro f hf
    simp only [onTransaction, ht, hf]
    split <;> rfl
  cases step <;> simp only [Step.demands, decide_eq_true_eq, Bool.false_eq_true] at hd <;>
    subst hd <;> simp only [Session.step, onOwner_of_finished ht hp]
  case execute => exact key _ (by simp only [execute, Transaction.execute, hp, outcome])
  case lend => exact key _ (by simp only [lend, Transaction.lend, hp, outcome])
  case hold => exact key _ (by simp only [hold, lend, Transaction.lend, hp])
  case commit =>
    exact key _ (by simp only [commit, Transaction.commitFault?, hp, finish_of_finished ht hp])
  case rollBack => exact key _ (by simp only [rollBack, Transaction.rollBackFault?, hp])

/-- No call on a finished transaction changes anything. -/
theorem step_of_finished {step : Step} (hc : step.callsOn id = true) : (s.step step).2 = s := by
  have key : ∀ f : Transaction → Answer × Session, (f t).2 = s → (s.onTransaction id f).2 = s := by
    intro f hf
    simp only [onTransaction, ht]
    split
    · exact hf
    · rfl
  cases step <;> simp only [Step.callsOn, decide_eq_true_eq, Bool.false_eq_true] at hc <;>
    subst hc
  case left => exact key _ rfl
  case isLive =>
    simp only [Session.step, onOwner_of_finished ht hp]
    exact key _ rfl
  case giveBack =>
    have hg : t.giveBack s.cluster = (t, s.cluster) := by simp only [Transaction.giveBack, hp]
    refine key _ ?_
    show s.change _ Transaction.giveBack = s
    exact change_self ht hg
  case happen =>
    obtain ⟨_, -, hm, -⟩ | ⟨-, h⟩ := s.happen_cases (.expire id)
    · exact absurd rfl (not_expire_of_finished ht hp hm)
    · exact h
  all_goals rw [demand_of_finished ht hp (by simp [Step.demands])]

end

/-- A run without the calls on a finished transaction is the same run. -/
theorem run_filter_of_finished {id : Nat} {ending : Ending} :
    ∀ (rest : List Step) {s : Session} {t : Transaction}, s.transactions[id]? = some t →
      t.phase = .finished ending →
      (s.run (rest.filter fun step => !step.callsOn id)).2 = (s.run rest).2
  | [], _, _, _, _ => rfl
  | step :: rest, s, t, ht, hp => by
    obtain ⟨t', ht', hl⟩ := (s.step_moves step).later ht
    have ih := run_filter_of_finished rest ht' (hl.finished _ hp)
    cases hc : step.callsOn id with
    | true =>
      rw [step_of_finished ht hp hc] at ih
      simp only [List.filter_cons, hc, Bool.not_true, Bool.false_eq_true, if_false, run]
      rw [step_of_finished ht hp hc]
      exact ih
    | false =>
      simp only [List.filter_cons, hc, Bool.not_false, if_true, run]
      exact ih

/-! ## Reachable sessions -/

/-- Every counter is the sum of what the transactions count for. -/
theorem tally_run (g : Generator) (offset : Int) (steps : List Step) (addr : String) :
    let s := ((fresh g offset).run steps).2
    (s.cluster.get addr).begins = total (fun _ => 1) addr s.transactions ∧
      (s.cluster.get addr).commits = total Transaction.commits addr s.transactions ∧
      (s.cluster.get addr).rollbacks = total Transaction.rollbacks addr s.transactions := by
  intro s
  obtain ⟨hb, hc, hr⟩ := (run_moves steps (fresh g offset)).balance addr
  exact ⟨hb.trans (Nat.zero_add _), hc.trans (Nat.zero_add _), hr.trans (Nat.zero_add _)⟩

theorem timely_run (g : Generator) (offset : Int) (steps : List Step) {id : Nat} {t : Transaction}
    (ht : ((fresh g offset).run steps).2.transactions[id]? = some t) :
    t.Timely ((fresh g offset).run steps).2.clock :=
  (run_moves steps (fresh g offset)).each (P := fun now t => t.Timely now) (fun hn h => h.mono hn)
    ⟨nofun, nofun, nofun⟩ Change.timely (fun _ _ h => by simp [books_fresh, Books.blank] at h)
    id t ht

theorem length_eq_counts (l : List Transaction) :
    l.length = (l.map Transaction.commits).sum + (l.map Transaction.rollbacks).sum +
      l.countP Transaction.isUncounted := by
  induction l with
  | nil => rfl
  | cons t l ih =>
    have ht : t.commits + t.rollbacks + (if t.isUncounted then 1 else 0) = 1 := by
      unfold Transaction.commits Transaction.rollbacks Transaction.isUncounted Transaction.isLive
      rcases t.phase with ⟨pending, loan⟩ | _ | _ | _ | _ <;> simp
    simp only [List.length_cons, List.map_cons, List.sum_cons, List.countP_cons]
    omega

/-- **A transaction is finished once and counts at most once.** The counters of a server are those
of the transactions begun on it, and those that count for nothing are still to be finished or were
refused at their commit. A commit or rollback by the owner of a live transaction ends it, as its
answer tells, and is counted so. A finished transaction stays as it is: calls on it are answered as
closed and are as good as not made, and its deadline has nothing left to do. -/
theorem finished_once (g : Generator) (offset : Int) (steps : List Step) :
    let s := ((fresh g offset).run steps).2
    (∀ addr,
      let v := s.cluster.get addr
      let l := onServer addr s.transactions
      v.begins = l.length ∧ v.commits = (l.map Transaction.commits).sum ∧
        v.rollbacks = (l.map Transaction.rollbacks).sum ∧
        (v.begins : Int) - v.commits - v.rollbacks = l.countP Transaction.isUncounted) ∧
    (∀ t ∈ s.transactions, t.commits + t.rollbacks ≤ 1 ∧
      (t.phase = .finished .refused → t.deadline.passed s.clock = true)) ∧
    (∀ id t (step : Step) ending, s.transactions[id]? = some t →
      step.ending? id (t.deadline.passed s.clock) = some ending →
      (∀ pending, t.owned = true → t.phase = .live pending .home →
        (s.step step).1 = t.verdict ending ∧
        (s.step step).2.books =
          { clock := s.clock
            transactions := s.transactions.set id { t with phase := .finished ending }
            account := recordAt t.server (ending.effect pending) s.cluster.accounts }) ∧
      (t.owned = false ∨ t.isLent = true → s.step step = (.nothing, s))) ∧
    ∀ id t ending, s.transactions[id]? = some t → t.phase = .finished ending →
      (∀ step : Step, step.demands id = true → s.step step =
        (if t.owned then .failed (.router .transactionClosed) else .nothing, s)) ∧
      (∀ step : Step, step.callsOn id = true → (s.step step).2 = s) ∧
      (∀ e ∈ s.events, e.2 ≠ .expire id) ∧
      ∀ rest, (∃ t', (s.run rest).2.transactions[id]? = some t' ∧
          t'.phase = .finished ending ∧ t'.server = t.server) ∧
        (s.run (rest.filter fun step => !step.callsOn id)).2 = (s.run rest).2 := by
  intro s
  refine ⟨fun addr => ?_, fun t hm => ⟨?_, ?_⟩, fun id t step ending ht he => ⟨?_, ?_⟩,
    fun id t ending ht hp => ?_⟩
  · obtain ⟨hb, hc, hr⟩ : (s.cluster.get addr).begins = total (fun _ => 1) addr s.transactions ∧
        (s.cluster.get addr).commits = total Transaction.commits addr s.transactions ∧
        (s.cluster.get addr).rollbacks = total Transaction.rollbacks addr s.transactions :=
      tally_run g offset steps addr
    have hl : total (fun _ => 1) addr s.transactions = (onServer addr s.transactions).length := by
      simp [total, List.map_const']
    have hsum := length_eq_counts (onServer addr s.transactions)
    simp only [total] at hc hr
    refine ⟨hb.trans hl, hc, hr, ?_⟩
    rw [hb, hl, hc, hr]
    omega
  · unfold Transaction.commits Transaction.rollbacks
    rcases t.phase with ⟨pending, loan⟩ | _ | _ | _ | _ <;> simp
  · obtain ⟨id, ht⟩ := List.getElem?_of_mem hm
    exact (timely_run g offset steps ht).refused
  · intro pending ho hp
    rw [step_of_ending ht he ho hp]
    exact ⟨rfl, books_finish ht hp ending⟩
  · exact step_of_unavailable ht he
  · refine ⟨fun _ hd => demand_of_finished ht hp hd, fun _ hc => step_of_finished ht hp hc,
      fun _ he => not_expire_of_finished ht hp he,
      fun rest => ⟨?_, run_filter_of_finished rest ht hp⟩⟩
    obtain ⟨t', ht', hl⟩ := (run_moves rest s).later ht
    exact ⟨t', ht', hl.finished _ hp, hl.server⟩

/-- A commit that comes late: nothing counts the transaction, and nobody reopens it. -/
theorem finished_once_refused :
    let steps := [Step.build "\x7b\"master\":\x7b\"addr\":\"m:1\"\x7d\x7d",
      .beginThrough ⟨1000000⟩, .jump (.ofMillis 1), .commit 0]
    let s := ((fresh ⟨0⟩ 0).run steps).2
    let t : Transaction :=
      { server := "m:1", deadline := ⟨1000000⟩, expires := true, phase := .finished .refused }
    s.transactions[0]? = some t ∧ t.commits + t.rollbacks = 0 ∧ (Step.rollBack 0).demands 0 = true ∧
      s.step (.rollBack 0) = (.failed (.router .transactionClosed), s) := by
  intro steps s t
  have ht : s.transactions[0]? = some t := by unfold s t steps; decide +kernel
  have hd : (Step.rollBack 0).demands 0 = true := rfl
  obtain ⟨demand, -⟩ := (finished_once ⟨0⟩ 0 steps).2.2.2 0 t .refused ht rfl
  exact ⟨ht, rfl, hd, demand _ hd⟩

end Session

end ReplicaRouter
