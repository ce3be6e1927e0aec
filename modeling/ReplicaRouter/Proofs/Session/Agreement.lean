import ReplicaRouter.Proofs.Session.Independence

/-! # Agreement

Two sessions agree on their first transactions if their clocks read the same and those transactions
are the same. Neither nodes nor servers nor later transactions can part them.

* `Session.agree_apart`: a step that lets no time pass and concerns no earlier transaction leaves
  the first ones as they are, and is in their history as good as not made.
* `Session.Agree.step`: any other step is answered the same and keeps the agreement, unless it is a
  hold of a later transaction, which can get its connection in one session only and then lets a time
  pass there.
* `Session.Agree.run`: so what runs make of the first transactions is up to the steps that bear on
  them (`Session.bearing`), where each hold is taken as its parts.
-/

namespace ReplicaRouter

/-- The step lets a time pass, whatever it finds. -/
def Step.passes : Step → Bool
  | .sleep _ => true
  | .jump _ => true
  | .settle => true
  | _ => false

/-- The step holds the connection of a transaction that is not among the first. -/
def Step.holdsBeyond (k : Nat) : Step → Bool
  | .hold i _ _ _ => k ≤ i
  | _ => false

/-- The step lets a time pass or concerns one of the first transactions. -/
def Step.bearsOn (k : Nat) (step : Step) : Bool :=
  step.passes || step.subject?.any (· < k)

/-- The entries that tell of the first transactions. -/
def entriesBelow (k : Nat) (h : List Entry) : List Entry := h.filter fun e => e.id < k

theorem entriesBelow_append (k : Nat) (h h' : List Entry) :
    entriesBelow k (h ++ h') = entriesBelow k h ++ entriesBelow k h' := List.filter_append ..

/-- What a call tells was done, was done to the transaction it concerns. -/
theorem Step.id_of_mem_entries {step : Step} {i : Nat} (h : step.subject? = some i) {now : Nat}
    {answer : Answer} {e : Entry} (he : e ∈ step.entries now answer) : e.id = i := by
  cases step with
  | execute j statement =>
    obtain rfl := Option.some.inj h
    cases answer with
    | done => rw [List.mem_singleton.1 he]
    | _ => cases he
  | commit j =>
    obtain rfl := Option.some.inj h
    cases answer with
    | done => rw [List.mem_singleton.1 he]
    | _ => cases he
  | hold => cases h
  | _ => cases he

namespace Session

/-- The clocks read the same and the first transactions are the same. -/
structure Agree (k : Nat) (s s' : Session) : Prop where
  clock : s'.clock = s.clock
  length_le : k ≤ s.transactions.length
  length_le' : k ≤ s'.transactions.length
  same : ∀ i < k, s'.transactions[i]? = s.transactions[i]?

namespace Agree

theorem refl {k : Nat} {s : Session} (h : k ≤ s.transactions.length) : Agree k s s :=
  ⟨rfl, h, h, fun _ _ => rfl⟩

theorem symm {k : Nat} {s s' : Session} (h : Agree k s s') : Agree k s' s :=
  ⟨h.clock.symm, h.length_le', h.length_le, fun i hi => (h.same i hi).symm⟩

theorem trans {k : Nat} {s s' s'' : Session} (h : Agree k s s') (h' : Agree k s' s'') :
    Agree k s s'' :=
  ⟨h'.clock.trans h.clock, h.length_le, h'.length_le',
    fun i hi => (h'.same i hi).trans (h.same i hi)⟩

theorem of_books {k : Nat} {s s' : Session} (hk : k ≤ s.transactions.length)
    (h : s'.books = s.books) : Agree k s s' := by
  have htransactions : s'.transactions = s.transactions := congrArg Books.transactions h
  exact ⟨congrArg Books.clock h, hk, by rw [htransactions]; exact hk,
    fun i _ => by rw [htransactions]⟩

/-- A transaction among the first is in both sessions. -/
theorem exists_transaction {k : Nat} {s s' : Session} (h : Agree k s s') {i : Nat} (hi : i < k) :
    ∃ t, s.transactions[i]? = some t ∧ s'.transactions[i]? = some t := by
  have ht := List.getElem?_eq_getElem (Nat.lt_of_lt_of_le hi h.length_le)
  exact ⟨_, ht, (h.same i hi).trans ht⟩

end Agree

/-! ## Steps apart -/

theorem agree_beginOn {k : Nat} {s : Session} (hk : k ≤ s.transactions.length) (server : String)
    (runtime : Duration) (expires : Bool) :
    Agree k s (s.beginOn server runtime expires).2 := by
  unfold beginOn
  split
  · exact ⟨rfl, hk, hk, fun _ _ => rfl⟩
  · refine ⟨rfl, hk, ?_, fun i hi => ?_⟩
    · exact Nat.le_trans hk (by simp)
    · exact List.getElem?_append_left (Nat.lt_of_lt_of_le hi hk)

/-- A call lets no time pass and changes no transaction but the one it concerns. -/
theorem step_call {s : Session} {step : Step} {i : Nat} (h : step.subject? = some i) :
    (s.step step).2.clock = s.clock ∧
      (s.step step).2.transactions.length = s.transactions.length ∧
      ∀ j ≠ i, (s.step step).2.transactions[j]? = s.transactions[j]? := by
  rcases ht : s.transactions[i]? with _ | t
  · rw [step_of_none ht h]
    exact ⟨rfl, rfl, fun _ _ => rfl⟩
  · obtain ⟨_, t', _, hlocal⟩ := step_localTo h s.clock t
    obtain ⟨-, hbooks⟩ := hlocal s rfl ht
    have htransactions : (s.step step).2.transactions = s.transactions.set i t' :=
      congrArg Books.transactions hbooks
    rw [htransactions]
    exact ⟨congrArg Books.clock hbooks, List.length_set,
      fun j hj => List.getElem?_set_ne hj.symm⟩

theorem agree_later {k : Nat} {s : Session} (hk : k ≤ s.transactions.length) {step : Step} {i : Nat}
    (h : step.subject? = some i) (hi : k ≤ i) : Agree k s (s.step step).2 := by
  obtain ⟨hnow, hlength, hsame⟩ := step_call h (s := s)
  exact ⟨hnow, hk, by omega, fun j hj => hsame j (by omega)⟩

/-- A step that bears on none of the first transactions, and is no hold. -/
theorem agree_apart {k : Nat} {s : Session} (hk : k ≤ s.transactions.length) {step : Step}
    (hh : step.isHold = false) (hb : step.bearsOn k = false) :
    Agree k s (s.step step).2 ∧ entriesBelow k (step.entries s.clock (s.step step).1) = [] := by
  obtain ⟨ht, hs⟩ := Bool.or_eq_false_iff.1 hb
  rcases hi : step.subject? with _ | i
  · cases ha : step.isAside with
    | true =>
      rw [Step.entries_of_isAside ha]
      exact ⟨.of_books hk (s.books_step_of_isAside ha), rfl⟩
    | false =>
      cases step with
      | sleep | jump | settle => cases ht
      | hold => cases hh
      | happen e =>
        cases e with
        | probe =>
          refine ⟨?_, rfl⟩
          show Agree k s (s.happen .probe)
          rw [happen_probe]
          split
          · exact .of_books hk s.books_handle_probe
          · exact .refl hk
        | expire => cases hi
      | beginOn server runtime =>
        refine ⟨?_, rfl⟩
        have hb := agree_beginOn hk server runtime false
        simp only [Session.step]
        split <;> rename_i hs <;> rw [hs] at hb <;> exact hb
      | beginThrough requested =>
        refine ⟨?_, rfl⟩
        simp only [Session.step, onNode]
        split
        · exact .refl hk
        unfold beginThrough
        split
        · exact .refl hk
        · rename_i server _
          have hb := agree_beginOn hk server requested.granted true
          split <;> rename_i hs <;> rw [hs] at hb <;> exact hb
      | execute | lend | giveBack | commit | rollBack | disown => cases hi
      | _ => cases ha
  · have hki : k ≤ i := by simpa [hi] using hs
    refine ⟨agree_later hk hi hki, List.filter_eq_nil_iff.2 fun e he => ?_⟩
    rw [Step.id_of_mem_entries hi he]
    simpa using hki

/-! ## Other steps -/

namespace Agree

section
variable {k : Nat} {s s' : Session}

/-- A call on one of the first transactions. -/
theorem call (h : Agree k s s') {i : Nat} (hi : i < k) {step : Step} (hs : step.subject? = some i) :
    (s'.step step).1 = (s.step step).1 ∧ Agree k (s.step step).2 (s'.step step).2 := by
  obtain ⟨t, ht, ht'⟩ := h.exists_transaction hi
  obtain ⟨answer, u, f, hlocal⟩ := step_localTo hs s.clock t
  obtain ⟨ha, hb⟩ := hlocal s rfl ht
  obtain ⟨ha', hb'⟩ := hlocal s' h.clock ht'
  have htransactions : (s.step step).2.transactions = s.transactions.set i u :=
    congrArg Books.transactions hb
  have htransactions' : (s'.step step).2.transactions = s'.transactions.set i u :=
    congrArg Books.transactions hb'
  refine ⟨ha'.trans ha.symm, (congrArg Books.clock hb').trans (congrArg Books.clock hb).symm,
    ?_, ?_, fun j hj => ?_⟩
  · rw [htransactions, List.length_set]
    exact h.length_le
  · rw [htransactions', List.length_set]
    exact h.length_le'
  · rw [htransactions, htransactions', List.getElem?_set, List.getElem?_set, h.same j hj]
    have := h.length_le
    have := h.length_le'
    split
    · rw [if_pos (by omega), if_pos (by omega)]
    · rfl

theorem sleep (h : Agree k s s') (time : Duration) : Agree k (s.sleep time) (s'.sleep time) := by
  have hnow := h.clock
  have hlength := h.length_le
  have hlength' := h.length_le'
  refine ⟨by rw [clock_sleep, clock_sleep, hnow], ?_, ?_, fun i hi => ?_⟩
  · rw [Session.sleep, transactions_advanceTo, List.length_map]
    exact hlength
  · rw [Session.sleep, transactions_advanceTo, List.length_map]
    exact hlength'
  · rw [Session.sleep, Session.sleep, transactions_advanceTo, transactions_advanceTo,
      List.getElem?_map, List.getElem?_map, h.same i hi, hnow]

/-- A hold of one of the first transactions. -/
theorem hold (h : Agree k s s') {i : Nat} (hi : i < k) (before : String) (time : Duration)
    (after : String) :
    (s'.step (.hold i before time after)).1 = (s.step (.hold i before time after)).1 ∧
      Agree k (s.step (.hold i before time after)).2 (s'.step (.hold i before time after)).2 := by
  refine hold_congr (R := Agree k) ?_ h
  apply Step.forall_partsOfHold
  · exact fun s s' h => h.call hi rfl
  · exact fun _ s s' h => h.call hi rfl
  · exact fun s s' h => ⟨rfl, h.sleep time⟩
  · exact fun s s' h => h.call hi rfl
  · exact fun s s' h => ⟨rfl, h.sleep ⟨0⟩⟩

/-- A call on one of the first transactions, or a hold of it, is answered the same. -/
theorem answer (h : Agree k s s') {i : Nat} (hi : i < k) {step : Step}
    (hc : step.callsOn i = true) : (s'.step step).1 = (s.step step).1 := by
  cases step with
  | hold j before time after =>
    obtain rfl := of_decide_eq_true hc
    exact (h.hold hi before time after).1
  | happen e =>
    obtain rfl := of_decide_eq_true hc
    exact (h.call hi rfl).1
  | left | isLive | execute | lend | giveBack | commit | rollBack =>
    obtain rfl := of_decide_eq_true hc
    exact (h.call hi rfl).1
  | _ => cases hc

/-- A step that bears on the first transactions keeps the agreement, and tells the same of them. -/
theorem bears (h : Agree k s s') {step : Step} (hb : step.bearsOn k = true) :
    Agree k (s.step step).2 (s'.step step).2 ∧
      entriesBelow k (step.entries s.clock (s.step step).1) =
        entriesBelow k (step.entries s'.clock (s'.step step).1) := by
  obtain ht | hs := Bool.or_eq_true_iff.1 hb
  · cases step with
    | sleep time => exact ⟨h.sleep time, rfl⟩
    | settle => exact ⟨h.sleep ⟨0⟩, rfl⟩
    | jump time =>
      exact ⟨⟨congrArg (· + time.nanos) h.clock, h.length_le, h.length_le', h.same⟩, rfl⟩
    | _ => cases ht
  · rcases hi : step.subject? with _ | i
    · rw [hi] at hs
      cases hs
    · rw [hi] at hs
      obtain ⟨hanswer, hnext⟩ := h.call (of_decide_eq_true hs) hi
      rw [hanswer, h.clock]
      exact ⟨hnext, rfl⟩

/-- A step that is no hold of a later transaction keeps the agreement and has the same parts. -/
theorem step (h : Agree k s s') {step : Step} (hb : step.holdsBeyond k = false) :
    Agree k (s.step step).2 (s'.step step).2 ∧
      step.parts (s'.step step).1 = step.parts (s.step step).1 := by
  cases hh : step.isHold with
  | true =>
    cases step with
    | hold i before time after =>
      obtain ⟨hanswer, hnext⟩ := h.hold (by simpa [Step.holdsBeyond] using hb) before time after
      exact ⟨hnext, by rw [hanswer]⟩
    | _ => cases hh
  | false =>
    refine ⟨?_, by rw [Step.parts_of_not_isHold hh, Step.parts_of_not_isHold hh]⟩
    cases hb : step.bearsOn k with
    | true => exact (h.bears hb).1
    | false =>
      obtain ⟨hleft, -⟩ := agree_apart h.length_le hh hb
      obtain ⟨hright, -⟩ := agree_apart h.length_le' hh hb
      exact (hleft.symm.trans h).trans hright

end

end Agree

/-! ## Runs -/

/-- The parts of a step tell the same of what was done. -/
theorem history_parts (s : Session) (step : Step) :
    s.history (step.parts (s.step step).1) = step.entries s.clock (s.step step).1 := by
  cases step with
  | hold id before time after =>
    obtain ⟨why, -, heq⟩ | ⟨first, second, s', heq, hrun⟩ := s.step_hold id before time after
    · rw [heq]
      cases why <;> rfl
    · have hanswers := congrArg Prod.fst hrun
      simp only [Step.partsOfHold, run, List.cons.injEq, and_true] at hanswers
      obtain ⟨hlend, hbefore, -, hafter, -⟩ := hanswers
      rw [heq]
      show s.history (Step.partsOfHold id before time after) = _
      simp only [Step.partsOfHold, history, hlend, hbefore, hafter]
      have hnow : (((s.step (.lend id)).2.step (.execute id before)).2.step (.sleep time)).2.clock =
          s.clock + time.nanos := by
        show (Session.sleep _ time).clock = _
        rw [clock_sleep, (step_call rfl).1, (step_call rfl).1]
      rw [hnow, (step_call rfl).1]
      cases first <;> cases second <;> rfl
  | _ => exact List.append_nil _

theorem history_unheld : ∀ (steps : List Step) (s : Session),
    s.history (s.unheld steps) = s.history steps
  | [], _ => rfl
  | step :: rest, s => by
    unfold unheld
    rw [history_append, history_parts, run_parts, history_unheld rest]
    rfl

/-- The steps of a run that bear on the first transactions, each hold taken as its parts. -/
def bearing (s : Session) (k : Nat) (steps : List Step) : List Step :=
  (s.unheld steps).filter (Step.bearsOn k)

namespace Agree

section
variable {k : Nat}

/-- Steps that bear on none of the first transactions might as well not be taken. -/
theorem run_filter : ∀ (steps : List Step) {s s' : Session}, Agree k s s' →
    (∀ step ∈ steps, step.isHold = false) →
    Agree k (s.run steps).2 (s'.run (steps.filter (Step.bearsOn k))).2 ∧
      entriesBelow k (s.history steps) =
        entriesBelow k (s'.history (steps.filter (Step.bearsOn k)))
  | [], _, _, h, _ => ⟨h, rfl⟩
  | step :: rest, s, s', h, hsimple => by
    have hrest := fun x hx => hsimple x (.tail step hx)
    cases hb : step.bearsOn k with
    | false =>
      obtain ⟨hapart, hentry⟩ := agree_apart h.length_le (hsimple step (.head _)) hb
      obtain ⟨hlast, hentries⟩ := run_filter rest (hapart.symm.trans h) hrest
      rw [List.filter_cons_of_neg (by simp [hb])]
      refine ⟨hlast, ?_⟩
      simp only [history, entriesBelow_append, hentry, List.nil_append, hentries]
    | true =>
      obtain ⟨hnext, hentry⟩ := h.bears hb
      obtain ⟨hlast, hentries⟩ := run_filter rest hnext hrest
      rw [List.filter_cons_of_pos hb]
      refine ⟨hlast, ?_⟩
      simp only [history, entriesBelow_append, hentry, hentries]

/-- Runs from sessions that agree, in which the same steps bear on the first transactions, agree in
the end, and the same was done to those. -/
theorem run {s s' : Session} (h : Agree k s s') {a b : List Step}
    (hab : s.bearing k a = s'.bearing k b) :
    Agree k (s.run a).2 (s'.run b).2 ∧
      entriesBelow k (s.history a) = entriesBelow k (s'.history b) := by
  have hsimple : ∀ (s : Session) (steps : List Step), ∀ step ∈ s.unheld steps,
      step.isHold = false := fun s steps step hm =>
    (forall_unheld (p := fun _ => True) (fun _ _ _ _ _ _ => trivial) (fun _ _ => trivial) step hm).2
  obtain ⟨hleft, hentries⟩ := h.run_filter (s.unheld a) (hsimple s a)
  obtain ⟨hright, hentries'⟩ := (refl h.length_le').run_filter (s'.unheld b) (hsimple s' b)
  rw [run_unheld] at hleft hright
  rw [history_unheld] at hentries hentries'
  change (s.unheld a).filter (Step.bearsOn k) = (s'.unheld b).filter (Step.bearsOn k) at hab
  rw [hab] at hleft hentries
  exact ⟨hleft.trans hright.symm, hentries.trans hentries'.symm⟩

/-- A close bears on no transaction. -/
theorem bearing_filter : ∀ (steps : List Step) {s s' : Session}, Agree k s s' →
    (∀ step ∈ steps, step.holdsBeyond k = false) →
    s.bearing k steps = s'.bearing k (steps.filter (· ≠ .close))
  | [], _, _, _, _ => rfl
  | step :: rest, s, s', h, hb => by
    have hrest := fun x hx => hb x (.tail step hx)
    by_cases hc : step = .close
    · subst hc
      have hclose : Agree k s (s.step .close).2 :=
        .of_books h.length_le (s.books_step_of_isAside rfl)
      exact bearing_filter rest (hclose.symm.trans h) hrest
    · obtain ⟨hnext, hparts⟩ := h.step (hb step (.head _))
      have ih := bearing_filter rest hnext hrest
      rw [List.filter_cons, if_pos (by simpa using hc)]
      simp only [bearing, unheld, List.filter_append] at ih ⊢
      rw [hparts, ih]

/-- Runs that differ in closes alone, without holds of later transactions. -/
theorem bearing_congr {s s' : Session} (h : Agree k s s') {a b : List Step}
    (hab : a.filter (· ≠ .close) = b.filter (· ≠ .close))
    (hb : ∀ step ∈ a, step.holdsBeyond k = false) : s.bearing k a = s'.bearing k b := by
  have hb' : ∀ step ∈ b, step.holdsBeyond k = false := by
    intro step hm
    by_cases hc : step = .close
    · rw [hc]
      rfl
    · have hf : step ∈ b.filter (· ≠ .close) := List.mem_filter.2 ⟨hm, by simpa using hc⟩
      rw [← hab] at hf
      exact hb step (List.mem_of_mem_filter hf)
  rw [h.bearing_filter a hb, hab, ← (refl h.length_le').bearing_filter b hb']

end

end Agree

end Session

end ReplicaRouter
