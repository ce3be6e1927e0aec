import ReplicaRouter.Proofs.Session.StepMoves

/-! # Alarms

The alarm of a transaction is the instant at which its deadline acts, while it has to
(`Transaction.wake?`).

* `Session.getElem?_advanceTo`: what letting a time pass does to one transaction.
* `Session.alarm?_step`: a step leaves an alarm as it is, unless it finishes the transaction or lets
  the background work of a time pass that the alarm falls in.
* `Session.alarm?_run`: an alarm outlasts exactly the runs that spare it (`Session.spares`).
-/

namespace ReplicaRouter

namespace Transaction

theorem expire_fst (t : Transaction) (c c' : Cluster) : (t.expire c).1 = (t.expire c').1 := by
  obtain ⟨server, deadline, expires, owned, phase⟩ := t
  rcases phase with ⟨pending, _ | _ | _⟩ | ending <;> rfl

/-- The transaction once the clock has come to an instant and its deadline has acted, if it had to
by then. -/
def upTo (limit : Nat) (t : Transaction) : Transaction :=
  if t.wake?.any (· ≤ limit) then (t.expire {}).1 else t

theorem wake?_upTo (limit : Nat) (t : Transaction) :
    (t.upTo limit).wake? = t.wake?.filter (limit < ·) := by
  unfold upTo
  rcases hw : t.wake? with _ | due
  · exact hw
  · by_cases h : due ≤ limit
    · simp [h, Session.wake?_expire, Option.filter_some]
    · simp [h, hw, Option.filter_some, Nat.lt_of_not_le h]

/-- A deadline that has acted by an earlier instant has nothing left to do. -/
theorem upTo_upTo {first limit : Nat} (h : first ≤ limit) (t : Transaction) :
    (t.upTo first).upTo limit = t.upTo limit := by
  rcases hw : t.wake? with _ | due
  · have hsame : t.upTo first = t := by
      unfold upTo
      rw [hw]
      rfl
    rw [hsame]
  by_cases hdue : due ≤ first
  · have hfirst : t.upTo first = (t.expire {}).1 := by simp [upTo, hw, hdue]
    have hlimit : t.upTo limit = (t.expire {}).1 := by simp [upTo, hw, Nat.le_trans hdue h]
    rw [hfirst, hlimit, upTo, Session.wake?_expire]
    rfl
  · have hsame : t.upTo first = t := by simp [upTo, hw, hdue]
    rw [hsame]

theorem wake?_execute {t t' : Transaction} {now : Nat} {statement : String}
    (h : t.execute now statement = .ok t') : t'.wake? = t.wake? := by
  unfold execute at h
  rcases hp : t.phase with ⟨pending, loan⟩ | ending <;> rw [hp] at h
  · simp only at h
    split at h
    · cases h
    · cases h
      unfold wake?
      rw [hp]
      cases loan <;> rfl
  · cases h

theorem wake?_lend {t t' : Transaction} (hl : t.isLent = false) (h : t.lend = .ok t') :
    t'.wake? = t.wake? := by
  unfold lend at h
  rcases hp : t.phase with ⟨pending, loan⟩ | ending <;> rw [hp] at h
  · cases h
    unfold wake?
    rw [Session.live_home hl hp]
  · cases h

/-- A connection that comes back changes no alarm: one that waited for it was off already. -/
theorem wake?_giveBack (t : Transaction) (c : Cluster) : (t.giveBack c).1.wake? = t.wake? := by
  obtain ⟨server, deadline, expires, owned, phase⟩ := t
  rcases phase with ⟨pending, _ | _ | _⟩ | ending <;> rfl

theorem wake?_finish (t : Transaction) (c : Cluster) (ending : Ending) :
    (t.finish c ending).1.wake? = none := by
  obtain ⟨server, deadline, expires, owned, phase⟩ := t
  rcases phase with ⟨pending, loan⟩ | e <;> cases ending <;> rfl

end Transaction

namespace Session

/-- The alarm of the transaction at a place, while it is set. -/
def alarm? (s : Session) (id : Nat) : Option Nat := s.transactions[id]?.bind Transaction.wake?

theorem alarm?_eq {s : Session} {id : Nat} {t : Transaction} (ht : s.transactions[id]? = some t) :
    s.alarm? id = t.wake? := by
  unfold alarm?
  rw [ht]
  rfl

theorem alarm?_congr {s s' : Session} (h : s'.transactions = s.transactions) (id : Nat) :
    s'.alarm? id = s.alarm? id := by
  unfold alarm?
  rw [h]

theorem alarm?_put {s : Session} {i : Nat} {t : Transaction}
    (ht : s.transactions[i]? = some t) (t' : Transaction) (id : Nat) :
    (s.put i t').alarm? id = if i = id then t'.wake? else s.alarm? id := by
  have hi := (List.getElem?_eq_some_iff.1 ht).1
  unfold alarm? put
  by_cases h : i = id
  · subst h
    simp [hi]
  · simp [List.getElem?_set_ne h, h]

theorem alarm?_change {s : Session} {i : Nat} {t : Transaction}
    {f : Transaction → Cluster → Transaction × Cluster} (ht : s.transactions[i]? = some t)
    (id : Nat) :
    (s.change i f).alarm? id = if i = id then (f t s.cluster).1.wake? else s.alarm? id := by
  have h := alarm?_put ht (f t s.cluster).1 id
  simp only [change, ht]
  exact h

theorem put_alarm? {s : Session} {i : Nat} {t t' : Transaction} (ht : s.transactions[i]? = some t)
    (hw : t'.wake? = t.wake?) (id : Nat) : (s.put i t').alarm? id = s.alarm? id := by
  rw [alarm?_put ht]
  split
  · rename_i h
    subst h
    rw [hw, alarm?_eq ht]
  · rfl

/-! ## Background work -/

theorem earliest_le : ∀ {l : List (Nat × Event)} {e : Nat × Event}, e ∈ l →
    ∃ e', earliest l = some e' ∧ e'.1 ≤ e.1
  | x :: rest, e, h => by
    simp only [earliest]
    rcases List.mem_cons.1 h with rfl | h
    · rcases earliest rest with _ | e'
      · exact ⟨_, rfl, Nat.le_refl _⟩
      · by_cases hlt : e'.1 < e.1
        · exact ⟨_, if_pos hlt, by omega⟩
        · exact ⟨_, if_neg hlt, Nat.le_refl _⟩
    · obtain ⟨e', he, hle⟩ := earliest_le h
      rw [he]
      by_cases hlt : e'.1 < x.1
      · exact ⟨_, if_pos hlt, hle⟩
      · exact ⟨_, if_neg hlt, by omega⟩

/-- If nothing is due up to an instant, every event comes later. -/
theorem lt_of_nextEvent?_none {s : Session} {limit : Nat} (h : s.nextEvent? limit = none)
    {e : Nat × Event} (he : e ∈ s.events) : limit < e.1 := by
  obtain ⟨e', hmin, hle⟩ := earliest_le he
  rw [nextEvent?, hmin, Option.filter_eq_none_iff] at h
  have hlate := h e' rfl
  simp only [decide_eq_true_eq] at hlate
  omega

/-- An event leaves a transaction alone or is its deadline's. -/
theorem getElem?_handle {s : Session} {id : Nat} {t : Transaction}
    (ht : s.transactions[id]? = some t) (e : Event) :
    (s.handle e).transactions[id]? = some (if e = .expire id then (t.expire {}).1 else t) := by
  cases e with
  | probe =>
    simp only [handle, reduceCtorEq, if_false]
    split
    · exact ht
    · exact ht
  | expire i =>
    simp only [handle, Event.expire.injEq]
    by_cases h : i = id
    · subst h
      have hi := (List.getElem?_eq_some_iff.1 ht).1
      simp only [change, ht, put, List.getElem?_set_self hi, if_true, t.expire_fst s.cluster {}]
    · rw [if_neg h]
      unfold change
      split
      · exact ht
      · simp only [put, List.getElem?_set_ne h, ht]

theorem getElem?_fireUpTo (limit id : Nat) :
    ∀ (n : Nat) {s : Session} {t : Transaction}, s.transactions[id]? = some t →
      (fireUpTo limit n s).transactions[id]? = some t ∨
        (fireUpTo limit n s).transactions[id]? = some (t.upTo limit)
  | 0, _, _, ht => .inl ht
  | n + 1, s, t, ht => by
    simp only [fireUpTo]
    split
    · exact .inl ht
    rename_i e he
    obtain ⟨hm, hle⟩ := nextEvent?_some he
    have hf : (s.fire e).transactions[id]? =
        some (if e.2 = .expire id then (t.expire {}).1 else t) :=
      getElem?_handle (s := { s with clock := max s.clock e.1 }) ht e.2
    by_cases hx : e.2 = .expire id
    · -- the deadline acts now, and not again
      have hup : t.upTo limit = (t.expire {}).1 := by
        rcases mem_events.1 hm with ⟨hpr, -⟩ | ⟨i, u, hi, hu, hw⟩
        · rw [hx] at hpr; cases hpr
        · rw [hx] at hi
          cases hi
          obtain rfl : t = u := Option.some.inj (ht.symm.trans hu)
          unfold Transaction.upTo
          rw [hw]
          exact if_pos (by simpa using hle)
      have hstill : (t.expire {}).1.upTo limit = (t.expire {}).1 := by
        unfold Transaction.upTo
        rw [wake?_expire]
        rfl
      rw [if_pos hx] at hf
      rw [hup]
      rcases getElem?_fireUpTo limit id n hf with h | h
      · exact .inr h
      · rw [hstill] at h
        exact .inr h
    · rw [if_neg hx] at hf
      exact getElem?_fireUpTo limit id n hf

/-- Once a time has passed, the deadlines in it have acted. -/
theorem getElem?_advanceTo {s : Session} {id : Nat} {t : Transaction}
    (ht : s.transactions[id]? = some t) (limit : Nat) :
    (s.advanceTo limit).transactions[id]? = some (t.upTo limit) := by
  rcases getElem?_fireUpTo limit id (s.workload limit) ht with h | h
  · replace h : (s.advanceTo limit).transactions[id]? = some t := h
    have hup : t.upTo limit = t := by
      unfold Transaction.upTo
      rcases hw : t.wake? with _ | due
      · rfl
      · have hm : (due, Event.expire id) ∈ (s.advanceTo limit).events :=
          mem_events.2 (.inr ⟨id, t, rfl, h, hw⟩)
        have hlt := lt_of_nextEvent?_none (nextEvent?_advanceTo s limit) hm
        exact if_neg (by simpa using hlt)
    rw [h, hup]
  · exact h

theorem alarm?_sleep (s : Session) {id : Nat} (hid : id < s.transactions.length) (time : Duration) :
    (s.sleep time).alarm? id = (s.alarm? id).filter (s.clock + time.nanos < ·) := by
  have ht := List.getElem?_eq_getElem hid
  have h : (s.sleep time).transactions[id]? = _ := getElem?_advanceTo ht (s.clock + time.nanos)
  rw [alarm?_eq ht, alarm?_eq h, Transaction.wake?_upTo]

theorem alarm?_happen (s : Session) {id : Nat} (hid : id < s.transactions.length) (e : Event) :
    (s.happen e).alarm? id =
      if e = .expire id then (s.alarm? id).filter (s.clock < ·) else s.alarm? id := by
  have ht := List.getElem?_eq_getElem hid
  obtain ⟨due, hd, hm, h⟩ | ⟨hlate, h⟩ := s.happen_cases e <;> rw [h]
  · rw [alarm?_eq (getElem?_handle ht e)]
    by_cases hx : e = .expire id
    · subst hx
      rw [if_pos rfl, if_pos rfl, wake?_expire]
      rw [mem_events_expire] at hm
      rw [alarm?, hm, Option.filter_some, if_neg (by simpa using hd)]
    · rw [if_neg hx, if_neg hx, alarm?_eq ht]
  · split
    · rename_i hx
      subst hx
      rcases ha : s.alarm? id with _ | due
      · rfl
      · rw [Option.filter_some, if_pos (by simpa using hlate due (mem_events_expire.2 ha))]
    · rfl

theorem clock_happen (s : Session) (e : Event) : (s.happen e).clock = s.clock := by
  obtain ⟨_, -, -, h⟩ | ⟨-, h⟩ := s.happen_cases e <;> rw [h]
  exact s.clock_handle e

theorem clock_giveBack (s : Session) (id : Nat) : (s.giveBack id).clock = s.clock :=
  s.clock_change id _

/-! ## Calls -/

theorem alarm?_beginOn (s : Session) {id : Nat} (hid : id < s.transactions.length)
    (server : String) (runtime : Duration) (expires : Bool) :
    (s.beginOn server runtime expires).2.alarm? id = s.alarm? id := by
  unfold beginOn
  split
  · rfl
  · simp only [alarm?, List.getElem?_append_left hid]

theorem alarm?_execute {s : Session} {i : Nat} {t : Transaction}
    (ht : s.transactions[i]? = some t) (statement : String) (id : Nat) :
    (s.execute i t statement).2.alarm? id = s.alarm? id := by
  unfold execute
  split
  · rfl
  · rename_i t' hx
    exact put_alarm? ht (Transaction.wake?_execute hx) id

theorem alarm?_executeAt (s : Session) (i : Nat) (statement : String) (id : Nat) :
    (s.executeAt i statement).2.alarm? id = s.alarm? id := by
  unfold executeAt
  split
  · rfl
  · exact alarm?_execute ‹_› statement id

theorem alarm?_lend {s : Session} {i : Nat} {t : Transaction} (ht : s.transactions[i]? = some t)
    (hl : t.isLent = false) (id : Nat) : (s.lend i t).2.alarm? id = s.alarm? id := by
  unfold lend
  split
  · rfl
  · rename_i t' hx
    exact put_alarm? ht (Transaction.wake?_lend hl hx) id

theorem alarm?_giveBack (s : Session) (i id : Nat) : (s.giveBack i).alarm? id = s.alarm? id := by
  unfold giveBack
  rcases ht : s.transactions[i]? with _ | t
  · simp only [change, ht]
  · rw [alarm?_change ht]
    split
    · rename_i h
      subst h
      rw [Transaction.wake?_giveBack, alarm?_eq ht]
    · rfl

theorem alarm?_finish {s : Session} {i : Nat} {t : Transaction} (ht : s.transactions[i]? = some t)
    (ending : Ending) (id : Nat) :
    (s.finish i ending).alarm? id = if i = id then none else s.alarm? id := by
  rw [finish, alarm?_change ht, Transaction.wake?_finish]

theorem length_executeAt (s : Session) (i : Nat) (statement : String) :
    (s.executeAt i statement).2.transactions.length = s.transactions.length := by
  unfold executeAt
  split
  · rfl
  · unfold execute
    split
    · rfl
    · exact List.length_set

theorem length_of_moves {s s' : Session} {h : List Entry} (hm : Moves s.books h s'.books) {id : Nat}
    (hid : id < s.transactions.length) : id < s'.transactions.length := by
  obtain ⟨t, ht, -⟩ := hm.later (List.getElem?_eq_getElem hid)
  exact (List.getElem?_eq_some_iff.1 ht).1

/-- A hold that lasts lets the background work of its time happen, and gives back what it took. -/
theorem alarm?_hold {s : Session} {i : Nat} {t : Transaction} (ht : s.transactions[i]? = some t)
    (ho : t.owned = true) (hl : t.isLent = false) (before : String) (time : Duration)
    (after : String) {id : Nat} (hid : id < s.transactions.length) :
    (∃ why, s.hold i t before time after = (.failed why, s)) ∨
      ∃ first second s', s.hold i t before time after = (.held first second, s') ∧
        s'.clock = s.clock + time.nanos ∧
          s'.alarm? id = (s.alarm? id).filter (s.clock + time.nanos < ·) := by
  rcases s.hold_eq i t before time after with h | ⟨s₁, hlend, h⟩
  · exact .inl h
  have hm := lend_moves ht ho hl
  have hnow := s.clock_lend i t
  have ha := alarm?_lend ht hl id
  rw [hlend] at hm hnow ha
  replace hnow : s₁.clock = s.clock := hnow
  have hid₁ : id < (s₁.executeAt i before).2.transactions.length := by
    rw [length_executeAt]
    exact length_of_moves hm hid
  have hid₂ := length_of_moves ((s₁.executeAt i before).2.sleep_moves time) hid₁
  rw [← length_executeAt _ i after] at hid₂
  have hid₃ := length_of_moves (giveBack_moves _ i) hid₂
  refine .inr ⟨_, _, _, h, ?_, ?_⟩
  · simp only [settle, clock_sleep, clock_giveBack, clock_executeAt, hnow, Nat.add_zero]
  · rw [settle, alarm?_sleep _ hid₃, alarm?_giveBack, alarm?_executeAt, alarm?_sleep _ hid₁,
      alarm?_executeAt]
    simp only [ha, clock_giveBack, clock_executeAt, clock_sleep, hnow, Nat.add_zero,
      Option.filter_filter, Bool.and_self]

/-! ## Steps -/

end Session

/-- The step lets background work happen that is due, the deadline of the transaction at a place
included. -/
def Step.attends (id : Nat) : Step → Answer → Bool
  | .sleep _, _ => true
  | .settle, _ => true
  | .happen e, _ => e = .expire id
  | .hold _ _ _ _, .held _ _ => true
  | _, _ => false

/-- The step takes the transaction at a place from its owner. -/
def Step.consumes (id : Nat) : Step → Answer → Bool
  | .commit _, .nothing => false
  | .commit i, _ => i = id
  | .rollBack _, .nothing => false
  | .rollBack i, _ => i = id
  | _, _ => false

/-- What a step that was answered, and left the clock at an instant, leaves of an alarm. -/
def Step.leaves (id : Nat) (step : Step) (answer : Answer) (now : Nat) (alarm : Option Nat) :
    Option Nat :=
  if step.consumes id answer then none
  else if step.attends id answer then alarm.filter (now < ·)
  else alarm

theorem Step.leaves_of_isAside {step : Step} (h : step.isAside = true) (id : Nat) (answer : Answer)
    (now : Nat) (alarm : Option Nat) : step.leaves id answer now alarm = alarm := by
  cases step with
  | sleep | settle | happen | hold | commit | rollBack => cases h
  | _ => rfl

/-- A step leaves a set alarm as it is or turns it off. -/
theorem Step.leaves_some (id : Nat) (step : Step) (answer : Answer) (now due : Nat) :
    step.leaves id answer now (some due) =
      if !step.consumes id answer && (!step.attends id answer || now < due) then some due
      else none := by
  unfold leaves
  rw [Option.filter_some]
  cases step.consumes id answer <;> cases step.attends id answer <;> simp

theorem Step.leaves_none (id : Nat) (step : Step) (answer : Answer) (now : Nat) :
    step.leaves id answer now none = none := by
  unfold leaves
  split
  · rfl
  · split <;> rfl

namespace Session

/-- An answer and a session after a step, which left of an alarm what it should. -/
def Left (s : Session) (id : Nat) (step : Step) (x : Answer × Session) : Prop :=
  x.2.alarm? id = step.leaves id x.1 x.2.clock (s.alarm? id)

theorem left_onTransaction {s : Session} {id i : Nat} {step : Step}
    {f : Transaction → Answer × Session} (hn : s.Left id step (.nothing, s))
    (h : ∀ t, s.transactions[i]? = some t → s.Left id step (f t)) :
    s.Left id step (s.onTransaction i f) := by
  rcases s.onTransaction_eq i f with hf | ⟨t, ht, -, hf⟩
  · rw [hf]; exact hn
  · rw [hf]; exact h t ht

theorem left_onOwner {s : Session} {id i : Nat} {step : Step}
    {f : Transaction → Answer × Session} (hn : s.Left id step (.nothing, s))
    (h : ∀ t, s.transactions[i]? = some t → t.owned = true → t.isLent = false →
      s.Left id step (f t)) :
    s.Left id step (s.onOwner i f) := by
  rcases s.onOwner_eq i f with hf | ⟨t, ht, ho, hl, hf⟩
  · rw [hf]; exact hn
  · rw [hf]; exact h t ht ho hl

theorem left_commit {s : Session} {i : Nat} {t : Transaction} (ht : s.transactions[i]? = some t)
    (id : Nat) : s.Left id (.commit i) (s.commit i t) := by
  have hc : ∀ e, (s.finish i e).alarm? id = if decide (i = id) then none else s.alarm? id := by
    intro e
    rw [alarm?_finish ht]
    simp only [decide_eq_true_eq]
  unfold commit
  split
  · exact hc .refused
  · exact hc .committed

theorem left_rollBack {s : Session} {i : Nat} {t : Transaction} (ht : s.transactions[i]? = some t)
    (id : Nat) : s.Left id (.rollBack i) (s.rollBack i t) := by
  unfold rollBack Transaction.rollBackFault?
  rcases hp : t.phase with ⟨pending, loan⟩ | ending
  · show (s.finish i .rolledBack).alarm? id = if decide (i = id) then none else s.alarm? id
    rw [alarm?_finish ht]
    simp only [decide_eq_true_eq]
  · -- a finished transaction has no alarm to lose
    show s.alarm? id = if decide (i = id) then none else s.alarm? id
    split
    · rename_i h
      obtain rfl : i = id := by simpa using h
      rw [alarm?_eq ht]
      unfold Transaction.wake?
      rw [hp]
    · rfl

theorem left_beginThrough (s : Session) {id : Nat} (hid : id < s.transactions.length) (n : Node)
    (requested : Duration) : s.Left id (.beginThrough requested) (s.beginThrough n requested) := by
  unfold beginThrough
  rcases n.master? with err | server
  · rfl
  simp only
  have h := s.alarm?_beginOn hid server requested.granted true
  rcases hb : s.beginOn server requested.granted true with ⟨_ | e, s'⟩ <;> rw [hb] at h <;> exact h

/-- What a step leaves of the alarm of a transaction that has begun. -/
theorem alarm?_step (s : Session) (step : Step) {id : Nat} (hid : id < s.transactions.length) :
    (s.step step).2.alarm? id =
      step.leaves id (s.step step).1 (s.step step).2.clock (s.alarm? id) := by
  by_cases ha : step.isAside = true
  · have hb : (s.step step).2.transactions = s.transactions :=
      congrArg Books.transactions (books_step_of_isAside s ha)
    rw [Step.leaves_of_isAside ha, alarm?_congr hb]
  cases step with
  | sleep time =>
    show (s.sleep time).alarm? id = (s.alarm? id).filter ((s.sleep time).clock < ·)
    rw [alarm?_sleep s hid, clock_sleep]
  | jump time => rfl
  | settle =>
    show (s.sleep ⟨0⟩).alarm? id = (s.alarm? id).filter ((s.sleep ⟨0⟩).clock < ·)
    rw [alarm?_sleep s hid, clock_sleep]
  | happen e =>
    show (s.happen e).alarm? id = _
    rw [alarm?_happen s hid]
    by_cases he : e = .expire id
    · simp [Step.leaves, Step.consumes, Step.attends, he, Session.step, clock_happen]
    · simp [Step.leaves, Step.consumes, Step.attends, he]
  | beginOn server runtime =>
    have h := s.alarm?_beginOn hid server runtime false
    simp only [Session.step]
    rcases hb : s.beginOn server runtime false with ⟨_ | e, s'⟩ <;> rw [hb] at h <;> exact h
  | beginThrough requested =>
    simp only [Session.step, onNode]
    rcases s.node with _ | n
    · rfl
    · exact s.left_beginThrough hid n requested
  | execute i statement =>
    exact left_onTransaction rfl fun t ht => alarm?_execute ht statement id
  | lend i => exact left_onOwner rfl fun t ht _ hl => alarm?_lend ht hl id
  | giveBack i => exact left_onTransaction rfl fun _ _ => s.alarm?_giveBack i id
  | hold i before time after =>
    refine left_onOwner rfl fun t ht ho hl => ?_
    rcases alarm?_hold ht ho hl before time after hid with ⟨why, hh⟩ | ⟨a, b, s', hh, hn, hal⟩
    · rw [hh]; rfl
    · rw [hh]
      show s'.alarm? id = (s.alarm? id).filter (s'.clock < ·)
      rw [hal, hn]
  | commit i => exact left_onOwner rfl fun t ht _ _ => left_commit ht id
  | rollBack i => exact left_onOwner rfl fun t ht _ _ => left_rollBack ht id
  | disown i =>
    refine left_onOwner rfl fun t ht _ _ => ?_
    have hw : ({ t with owned := false } : Transaction).wake? = t.wake? := rfl
    exact put_alarm? ht hw id
  | _ => exact absurd rfl ha

/-! ## Runs -/

/-- Whether no step of a run takes the transaction at a place from its owner or lets the background
work happen once an alarm is due. -/
def spares (id due : Nat) : Session → List Step → Bool
  | _, [] => true
  | s, step :: rest =>
    let (answer, s') := s.step step
    !step.consumes id answer && (!step.attends id answer || s'.clock < due) && s'.spares id due rest

theorem alarm?_run_none {id : Nat} : ∀ (steps : List Step) {s : Session},
    id < s.transactions.length → s.alarm? id = none → (s.run steps).2.alarm? id = none
  | [], _, _, h => h
  | step :: rest, s, hid, h => by
    have hs := alarm?_step s step hid
    rw [h, Step.leaves_none] at hs
    exact alarm?_run_none rest (length_of_moves (s.step_moves step) hid) hs

/-- An alarm outlasts exactly the runs that spare it. -/
theorem alarm?_run {id due : Nat} : ∀ (steps : List Step) {s : Session},
    id < s.transactions.length → s.alarm? id = some due →
      (s.run steps).2.alarm? id = if s.spares id due steps then some due else none
  | [], _, _, h => h
  | step :: rest, s, hid, h => by
    have hid' := length_of_moves (s.step_moves step) hid
    have hs := alarm?_step s step hid
    rw [h, Step.leaves_some] at hs
    have hrun : (s.run (step :: rest)).2 = ((s.step step).2.run rest).2 := rfl
    rw [hrun]
    unfold spares
    by_cases hk : (!step.consumes id (s.step step).1 &&
        (!step.attends id (s.step step).1 || (s.step step).2.clock < due)) = true
    · rw [if_pos hk] at hs
      simp only [hk, Bool.true_and]
      exact alarm?_run rest hid' hs
    · rw [if_neg hk] at hs
      simp only [hk, Bool.false_and, Bool.false_eq_true, if_false]
      exact alarm?_run_none rest hid' hs

/-- A transaction that a node began has its alarm set as long as the run spares it. -/
theorem wake?_run {s : Session} {requested : Duration} {left : Int}
    (h : (s.step (.beginThrough requested)).1 = .begun left) (after : List Step) {t : Transaction}
    (ht : ((s.step (.beginThrough requested)).2.run after).2.transactions[s.transactions.length]? =
      some t) :
    t.wake? =
      if (s.step (.beginThrough requested)).2.spares s.transactions.length t.deadline.wake after
      then some t.deadline.wake else none := by
  obtain ⟨-, server, hlast⟩ := step_beginThrough h
  obtain ⟨u, hu, hl⟩ := (run_moves after _).later hlast
  obtain rfl : u = t := Option.some.inj (hu.symm.trans ht)
  have hset := alarm?_eq hlast
  rw [← alarm?_eq ht, hl.deadline]
  exact alarm?_run after (List.getElem?_eq_some_iff.1 hlast).1 hset

end Session

end ReplicaRouter
