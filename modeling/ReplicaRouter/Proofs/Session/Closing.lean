import ReplicaRouter.Proofs.Session.Alarms
import ReplicaRouter.Proofs.Session.Counters

/-! # Closing

What becomes of a node's transaction once its deadline has passed. It stays open until background
work gets to run: a clock that jumps past the deadline leaves it open, and then its owner can still
borrow its connection or roll it back, and can consume it by a commit that is refused and after
which no rollback is ever counted.

* `Session.calls_of_overdue`: what its owner hears while it is open.
* `Transaction.upTo_giveBack`: background work ends it once its connection is back.
* `Session.closed_iff_attended` puts them together with the alarm, which tells exactly when it is
  still open (`Session.alarm?_run`).
-/

namespace ReplicaRouter

/-- How a transaction whose deadline has passed ends if its owner does nothing more. -/
def Phase.due : Phase → Ending
  | .live _ _ => .expired
  | .finished ending => ending

namespace Transaction

theorem wake?_of_home {t : Transaction} {pending : List String} (he : t.expires = true)
    (hp : t.phase = .live pending .home) : t.wake? = some t.deadline.wake := by
  unfold wake?
  rw [hp]
  exact if_pos he

theorem wake?_of_finished {t : Transaction} {ending : Ending} (hp : t.phase = .finished ending) :
    t.wake? = none := by
  unfold wake?
  rw [hp]

theorem upTo_of_home {t : Transaction} {limit : Nat} {pending : List String}
    (he : t.expires = true) (hdue : t.deadline.wake ≤ limit)
    (hp : t.phase = .live pending .home) :
    t.upTo limit = { t with phase := .finished .expired } := by
  unfold upTo
  rw [wake?_of_home he hp, Option.any_some, decide_eq_true hdue, if_pos rfl]
  simp only [expire, finish, hp]

theorem upTo_of_finished {t : Transaction} {limit : Nat} {ending : Ending}
    (hp : t.phase = .finished ending) : t.upTo limit = t := by
  unfold upTo
  rw [wake?_of_finished hp, Option.any_none]
  exact if_neg Bool.false_ne_true

/-- A connection that is back lets a transaction end whose timer has acted. -/
theorem upTo_giveBack {t : Transaction} {limit : Nat} (he : t.expires = true)
    (hd : t.deadline.wake ≤ limit) (c : Cluster) :
    (t.giveBack c).1.upTo limit = { t with phase := .finished t.phase.due } := by
  unfold giveBack
  rcases hp : t.phase with ⟨pending, _ | _ | _⟩ | ending
  · exact upTo_of_home he hd hp
  · exact upTo_of_home he hd rfl
  · simp only [finish, hp]
    exact upTo_of_finished rfl
  · simp only [upTo_of_finished hp, Phase.due, ← hp]

theorem giveBack_of_home {t : Transaction} (hl : t.isLent = false) (c : Cluster) :
    (t.giveBack c).1 = t := by
  unfold giveBack
  rcases hp : t.phase with ⟨pending, loan⟩ | ending
  · rw [Session.live_home hl hp] at hp
    cases hp
    rfl
  · rfl

theorem rollbacks_due (t : Transaction) :
    ({ t with phase := .finished t.phase.due } : Transaction).rollbacks =
      if t.phase = .finished .committed ∨ t.phase = .finished .refused then 0 else 1 := by
  obtain ⟨server, deadline, expires, owned, phase⟩ := t
  rcases phase with ⟨pending, loan⟩ | _ | _ | _ | _ <;> simp [rollbacks, Phase.due]

end Transaction

/-! ## Who has the connection -/

theorem Change.lent_owned {now : Nat} {t t' : Transaction} {deed : Option Deed}
    {f : Account → Account} (hc : Change now t deed t' f)
    (h : t.isLent = true → t.owned = true) (hl : t'.isLent = true) : t'.owned = true := by
  cases hc with
  | @execute pending loan statement ht hd =>
    refine h ?_
    unfold Transaction.isLent at hl ⊢
    rw [ht]
    cases loan <;> exact hl
  | lend ho ht => exact ho
  | await ht he hd => exact h (by unfold Transaction.isLent; rw [ht])
  | disown hn => exact absurd (hn.symm.trans hl) Bool.false_ne_true
  | giveBack ht => cases hl
  | commit ht hd => cases hl
  | refuse ht hd => cases hl
  | rollBack ht => cases hl
  | expire ht he hd => cases hl
  | expireLate ht => cases hl

namespace Session

/-- Only an owned transaction's connection can be away. -/
theorem lent_owned_run (g : Generator) (offset : Int) (steps : List Step) {id : Nat}
    {t : Transaction} (ht : ((fresh g offset).run steps).2.transactions[id]? = some t) :
    t.isLent = true → t.owned = true :=
  (run_moves steps (fresh g offset)).each (P := fun _ t => t.isLent = true → t.owned = true)
    (fun _ h => h) nofun Change.lent_owned (fun _ _ h => by simp [books_fresh, Books.blank] at h)
    id t ht

/-! ## Overdue transactions -/

/-- An overdue transaction that is still open refuses a commit alone. -/
theorem calls_of_overdue {s : Session} {id : Nat} {t : Transaction} {pending : List String}
    (ht : s.transactions[id]? = some t) (ho : t.owned = true) (he : t.expires = true)
    (hp : t.phase = .live pending .home) (hd : t.deadline.passed s.clock = true) :
    (s.step (.lend id)).1 = .done ∧ (s.step (.rollBack id)).1 = .done ∧
      s.step (.commit id) =
        (.failed (.router (.driver .deadlineExceeded)), s.finish id .refused) := by
  have hl := isLent_of_home hp
  refine ⟨?_, ?_, ?_⟩
  · simp only [step, onOwner_of_home ht ho hl, lend, Transaction.lend, hp, outcome]
  · rw [step_of_ending ht (Step.ending?_eq_some.2 (.inr ⟨rfl, rfl⟩)) ho hp]
    rfl
  · have hlate : (Step.commit id).ending? id (t.deadline.passed s.clock) = some .refused :=
      Step.ending?_eq_some.2 (.inl ⟨rfl, by rw [hd, if_pos rfl]⟩)
    have hverdict : t.verdict .refused = .failed (.router (.driver .deadlineExceeded)) := by
      simp only [Transaction.verdict, Transaction.refusal, he, if_true]
    rw [step_of_ending ht hlate ho hp, hverdict]

/-- Once its connection is back, a time that the timer of its deadline falls in ends a
transaction. -/
theorem getElem?_giveBack_sleep {s : Session} {id : Nat} {t : Transaction} {time : Duration}
    (ht : s.transactions[id]? = some t) (hlo : t.isLent = true → t.owned = true)
    (he : t.expires = true) (hd : t.deadline.wake ≤ s.clock + time.nanos) :
    (s.run [.giveBack id, .sleep time]).2.transactions[id]? =
      some { t with phase := .finished t.phase.due } := by
  have hback : ∃ s', (s.step (.giveBack id)).2 = s' ∧ s'.clock = s.clock ∧
      s'.transactions[id]? = some (t.giveBack s.cluster).1 := by
    cases ho : t.owned with
    | true =>
      have hi := (List.getElem?_eq_some_iff.1 ht).1
      refine ⟨s.giveBack id, ?_, s.clock_giveBack id, ?_⟩
      · simp only [step, onTransaction, ht, ho, if_true]
      · simp only [giveBack, change, ht, put, List.getElem?_set_self hi]
    | false =>
      have hl : t.isLent = false := by
        cases hl : t.isLent with
        | true => exact absurd (ho.symm.trans (hlo hl)) Bool.false_ne_true
        | false => rfl
      refine ⟨s, ?_, rfl, ?_⟩
      · simp only [step, onTransaction, ht, ho, Bool.false_eq_true, if_false]
      · rw [Transaction.giveBack_of_home hl, ht]
  obtain ⟨s', hs', hnow, ht'⟩ := hback
  have hend : (s'.sleep time).transactions[id]? = _ :=
    getElem?_advanceTo ht' (s'.clock + time.nanos)
  show ((s.step (.giveBack id)).2.sleep time).transactions[id]? = _
  rw [hs', hend, hnow, Transaction.upTo_giveBack he hd]

theorem getElem?_finish {s : Session} {id : Nat} {t : Transaction} {pending : List String}
    {loan : Loan} (ht : s.transactions[id]? = some t) (hp : t.phase = .live pending loan)
    (ending : Ending) :
    (s.finish id ending).transactions[id]? = some { t with phase := .finished ending } := by
  have hset : (s.finish id ending).transactions = _ :=
    congrArg Books.transactions (books_finish ht hp ending)
  rw [hset, List.getElem?_set_self (List.getElem?_eq_some_iff.1 ht).1]

/-- What the owner of an overdue transaction hears. -/
theorem calls_of_wake? {s : Session} {id : Nat} {t : Transaction} {isOpen : Bool}
    (ht : s.transactions[id]? = some t) (ho : t.owned = true) (hl : t.isLent = false)
    (he : t.expires = true) (hd : t.deadline.passed s.clock = true)
    (hw : t.wake? = if isOpen then some t.deadline.wake else none) :
    let closed := Answer.failed (.router .transactionClosed)
    (s.step (.lend id)).1 = (if isOpen then .done else closed) ∧
      (s.step (.rollBack id)).1 = (if isOpen then .done else closed) ∧
      (s.step (.commit id)).1 =
        (if isOpen then .failed (.router (.driver .deadlineExceeded)) else closed) ∧
      (isOpen = true → ∀ rest, ∃ t',
        ((s.step (.commit id)).2.run rest).2.transactions[id]? = some t' ∧
          t'.phase = .finished .refused ∧ t'.rollbacks = 0) := by
  intro closed
  rcases hp : t.phase with ⟨pending, loan⟩ | ending
  · replace hp := live_home hl hp
    obtain rfl : isOpen = true := by
      rw [Transaction.wake?_of_home he hp] at hw
      cases isOpen with
      | true => rfl
      | false => cases hw
    obtain ⟨hlend, hroll, hcommit⟩ := calls_of_overdue ht ho he hp hd
    rw [hlend, hroll, hcommit]
    refine ⟨rfl, rfl, rfl, fun _ rest => ?_⟩
    obtain ⟨t', ht', hl'⟩ :=
      (run_moves rest (s.finish id .refused)).later (getElem?_finish ht hp .refused)
    have hp' := hl'.finished .refused rfl
    exact ⟨t', ht', hp', by simp [Transaction.rollbacks, hp']⟩
  · obtain rfl : isOpen = false := by
      rw [Transaction.wake?_of_finished hp] at hw
      cases isOpen with
      | true => cases hw
      | false => rfl
    have hcall : ∀ step : Step, step.demands id = true → (s.step step).1 = closed := by
      intro step hs
      rw [demand_of_finished ht hp hs, ho]
      rfl
    rw [hcall _ (by simp [Step.demands]), hcall _ (by simp [Step.demands]),
      hcall _ (by simp [Step.demands])]
    exact ⟨rfl, rfl, rfl, fun h => absurd h Bool.false_ne_true⟩

/-- **A node's transaction is closed once its deadline has been attended to.** Past the deadline it
is open exactly if, since it began, no call of its owner has consumed it and no background work has
run once the timer of the deadline was due, less than a millisecond after it. While it is open its
connection can be borrowed and it can be rolled back, and a commit is refused as late and consumes
it for good. Once its connection is back and what is due has happened it is closed and counts one
rollback, unless a commit has consumed it. -/
theorem closed_iff_attended (g : Generator) (offset : Int) (before after : List Step)
    (requested : Duration) (left : Int)
    (hb : (((fresh g offset).run before).2.step (.beginThrough requested)).1 = .begun left) :
    let s₀ := ((fresh g offset).run before).2
    let id := s₀.transactions.length
    let s₁ := (s₀.step (.beginThrough requested)).2
    let s := (s₁.run after).2
    let closed := Answer.failed (.router .transactionClosed)
    ∃ t, s.transactions[id]? = some t ∧ t.deadline = .after s₀.clock requested.granted ∧
      t.deadline.wake < t.deadline.nanos + Duration.perMilli ∧
      (t.deadline.passed s.clock = true → t.owned = true → t.isLent = false →
        let isOpen := s₁.spares id t.deadline.wake after
        (s.step (.lend id)).1 = (if isOpen then .done else closed) ∧
        (s.step (.rollBack id)).1 = (if isOpen then .done else closed) ∧
        (s.step (.commit id)).1 =
          (if isOpen then .failed (.router (.driver .deadlineExceeded)) else closed) ∧
        (isOpen = true → ∀ rest, ∃ t',
          ((s.step (.commit id)).2.run rest).2.transactions[id]? = some t' ∧
            t'.phase = .finished .refused ∧ t'.rollbacks = 0)) ∧
      ∀ time : Duration, t.deadline.wake ≤ s.clock + time.nanos →
        let s' := (s.run [.giveBack id, .sleep time]).2
        (∀ step : Step, step.demands id = true →
          s'.step step = (if t.owned then closed else .nothing, s')) ∧
        ∃ t', s'.transactions[id]? = some t' ∧ t'.server = t.server ∧
          t'.rollbacks =
            (if t.phase = .finished .committed ∨ t.phase = .finished .refused then 0 else 1) ∧
          (s'.cluster.get t.server).rollbacks =
            ((onServer t.server s'.transactions).map Transaction.rollbacks).sum := by
  intro s₀ id s₁ s closed
  obtain ⟨t, ht, he, hdl⟩ := run_beginThrough hb after
  have hreach : ∀ rest, (s.run rest).2 = ((fresh g offset).run
      (before ++ .beginThrough requested :: (after ++ rest))).2 := by
    intro rest
    rw [run_append]
    show _ = (s₁.run (after ++ rest)).2
    rw [run_append]
  refine ⟨t, ht, hdl, Timer.wake_lt _, fun hd ho hl => ?_, fun time hd => ?_⟩
  · exact calls_of_wake? ht ho hl he hd (wake?_run hb after ht)
  · intro s'
    have hrun : ((fresh g offset).run
        (before ++ .beginThrough requested :: (after ++ []))).2.transactions[id]? = some t := by
      rw [← hreach []]
      exact ht
    have hlo := lent_owned_run g offset _ hrun
    have ht' : s'.transactions[id]? = some { t with phase := .finished t.phase.due } :=
      getElem?_giveBack_sleep ht hlo he hd
    refine ⟨fun step hs => demand_of_finished ht' rfl hs, _, ht', rfl, t.rollbacks_due, ?_⟩
    show ((s.run [.giveBack id, .sleep time]).2.cluster.get t.server).rollbacks = _
    have htally := (tally_run g offset
      (before ++ .beginThrough requested :: (after ++ [.giveBack id, .sleep time])) t.server).2.2
    rw [← hreach] at htally
    exact htally

/-- The clock jumps to the deadline, and the commit that follows is refused and not rolled back. -/
theorem closed_iff_attended_jump :
    let s₀ := ((fresh ⟨0⟩ 0).run [.build "\x7b\"master\":\x7b\"addr\":\"m:1\"\x7d\x7d"]).2
    let s := ((s₀.step (.beginThrough ⟨1000000⟩)).2.run [.jump (.ofMillis 1)]).2
    let id := s₀.transactions.length
    (s₀.step (.beginThrough ⟨1000000⟩)).1 = .begun 1000000 ∧
      ∃ t, s.transactions[id]? = some t ∧ t.deadline.passed s.clock = true ∧ t.owned = true ∧
        t.isLent = false ∧ (s.step (.lend id)).1 = .done ∧
        (s.step (.commit id)).1 = .failed (.router (.driver .deadlineExceeded)) ∧
        ∀ rest, ∃ t', ((s.step (.commit id)).2.run rest).2.transactions[id]? = some t' ∧
          t'.rollbacks = 0 := by
  have hb : (((fresh ⟨0⟩ 0).run [.build "\x7b\"master\":\x7b\"addr\":\"m:1\"\x7d\x7d"]).2.step
      (.beginThrough ⟨1000000⟩)).1 = .begun 1000000 := by decide +kernel
  have main := closed_iff_attended ⟨0⟩ 0 _ [.jump (.ofMillis 1)] ⟨1000000⟩ _ hb
  generalize ((fresh ⟨0⟩ 0).run [.build _]).2 = s₀ at hb main ⊢
  intro s₀' s id
  obtain ⟨-, server, hlast⟩ := step_beginThrough hb
  obtain ⟨t, ht, -, -, h, -⟩ := main
  obtain rfl : _ = t := Option.some.inj (hlast.symm.trans ht)
  -- a millisecond passes, whatever the clock read
  have hnow : s₀.clock ≤ (s₀.step (.beginThrough ⟨1000000⟩)).2.clock := (s₀.step_moves _).clock_le
  have hd : (Deadline.after s₀.clock (Duration.granted ⟨1000000⟩)).passed s.clock = true :=
    decide_eq_true (Nat.add_le_add_right hnow 1000000)
  obtain ⟨hlend, -, hcommit, hrest⟩ := h hd rfl rfl
  refine ⟨hb, _, ht, hd, rfl, rfl, hlend, hcommit, fun rest => ?_⟩
  obtain ⟨t', ht', -, hr⟩ := hrest rfl rest
  exact ⟨t', ht', hr⟩

end Session

end ReplicaRouter
