import ReplicaRouter.Proofs.Session.Moves

/-! # Steps as moves

Everything that a step does to the books is a sequence of moves.

* `Session.step_moves`: a step's moves carry exactly the entries that its answer tells.
* `Session.run_moves`: and so it is for a run.

The clock moves with the events it meets, so background work is taken event by event
(`Session.fireUpTo_moves`); a hold is the loan, two executions with a sleep between them and the
return (`Session.hold_moves`).
-/

namespace ReplicaRouter

namespace Session

/-! ## Changes of one transaction -/

theorem put_self {s : Session} {i : Nat} {t : Transaction} (ht : s.transactions[i]? = some t) :
    s.put i t = s := by
  obtain ⟨hi, rfl⟩ := List.getElem?_eq_some_iff.1 ht
  simp only [put, List.set_getElem_self]

/-- A change that changes nothing. -/
theorem change_self {s : Session} {i : Nat} {t : Transaction}
    {f : Transaction → Cluster → Transaction × Cluster} (ht : s.transactions[i]? = some t)
    (hf : f t s.cluster = (t, s.cluster)) : s.change i f = s := by
  simp only [change, ht, hf]
  exact put_self ht

theorem put_moves {s : Session} {i : Nat} {t t' : Transaction} {deed : Option Deed}
    (ht : s.transactions[i]? = some t) (hc : Change s.clock t deed t' id) :
    Moves s.books (deed.toList.map (⟨s.clock, i, ·⟩)) (s.put i t').books := by
  have h := Move.change (b := s.books) ht hc
  rw [recordAt_id] at h
  exact .single h

/-- A change of a transaction and its server is a move if both come out as a `Change` says. -/
theorem change_moves {s : Session} {i : Nat} {t t' : Transaction} {deed : Option Deed}
    {f : Transaction → Cluster → Transaction × Cluster} {g : Account → Account}
    (ht : s.transactions[i]? = some t) (hc : Change s.clock t deed t' g)
    (h1 : (f t s.cluster).1 = t')
    (h2 : (f t s.cluster).2.accounts = recordAt t.server g s.cluster.accounts) :
    Moves s.books (deed.toList.map (⟨s.clock, i, ·⟩)) (s.change i f).books := by
  subst h1
  have h := Move.change (b := s.books) ht hc
  rw [show s.books.account = s.cluster.accounts from rfl, ← h2] at h
  simp only [change, ht]
  exact .single h

theorem finish_moves {s : Session} {i : Nat} {t : Transaction} {pending : List String}
    {loan : Loan} {ending : Ending} {deed : Option Deed} (ht : s.transactions[i]? = some t)
    (hp : t.phase = .live pending loan)
    (hc : Change s.clock t deed { t with phase := .finished ending } (ending.effect pending)) :
    Moves s.books (deed.toList.map (⟨s.clock, i, ·⟩)) (s.finish i ending).books :=
  have ⟨h1, h2⟩ := Transaction.accounts_finish hp s.cluster ending
  change_moves (f := fun t c => t.finish c ending) ht hc h1 h2

/-! ## Background work -/

/-- A deadline acts on live transactions that expire, unless it waits for a connection. -/
theorem wake?_eq_some {t : Transaction} {due : Nat} (h : t.wake? = some due) :
    t.expires = true ∧ t.deadline.wake = due ∧
      ∃ pending, t.phase = .live pending .home ∨ t.phase = .live pending .lent := by
  unfold Transaction.wake? at h
  rcases hp : t.phase with ⟨pending, _ | _ | _⟩ | ending <;> simp only [hp] at h
  · split at h
    · exact ⟨‹_›, Option.some.inj h, pending, .inl rfl⟩
    · cases h
  · split at h
    · exact ⟨‹_›, Option.some.inj h, pending, .inr rfl⟩
    · cases h
  · cases h
  · cases h

theorem expire_moves {s : Session} {id : Nat} {t : Transaction} {due : Nat}
    (ht : s.transactions[id]? = some t) (hw : t.wake? = some due) (hd : due ≤ s.clock) :
    Moves s.books [] (s.change id Transaction.expire).books := by
  obtain ⟨he, hwake, pending, hp⟩ := wake?_eq_some hw
  have hpass : t.deadline.passed s.clock = true := Deadline.passed_of_wake_le (by omega)
  rcases hp with hp | hp
  · have hx : ∀ c, t.expire c = t.finish c .expired := fun c => by
      simp only [Transaction.expire, hp]
    obtain ⟨h1, h2⟩ := Transaction.accounts_finish hp s.cluster .expired
    exact change_moves ht (.expire hp he hpass) (by rw [hx, h1]) (by rw [hx, h2])
  · have hx : t.expire s.cluster = ({ t with phase := .live pending .awaited }, s.cluster) := by
      simp only [Transaction.expire, hp]
    exact change_moves ht (.await hp he hpass) (by rw [hx]) (by rw [hx, recordAt_id])

theorem handle_moves {s : Session} {e : Nat × Event} (he : e ∈ s.events) (hd : e.1 ≤ s.clock) :
    Moves s.books [] (s.handle e.2).books := by
  rcases mem_events.1 he with ⟨h, n, hn, -⟩ | ⟨id, t, h, ht, hw⟩
  · rw [h]
    simp only [handle, hn]
    have : (s.handle .probe).books = s.books := by
      simp only [handle, hn, books, probe, n.accounts_probe]
    simp only [handle, hn] at this
    rw [this]
    exact .refl
  · rw [h]
    exact expire_moves ht hw hd

theorem fire_moves {s : Session} {e : Nat × Event} (he : e ∈ s.events) :
    Moves s.books [] (s.fire e).books := by
  have hpass : Moves s.books [] { s with clock := max s.clock e.1 }.books :=
    .single (.pass (b := s.books) (Nat.le_max_left _ _))
  exact hpass.trans
    (handle_moves (s := { s with clock := max s.clock e.1 }) he (Nat.le_max_right _ _))

theorem fireUpTo_moves (limit : Nat) :
    ∀ (n : Nat) (s : Session), Moves s.books [] (fireUpTo limit n s).books
  | 0, _ => .refl
  | n + 1, s => by
    simp only [fireUpTo]
    split
    · exact .refl
    · rename_i e he
      exact (fire_moves (nextEvent?_some he).1).trans (fireUpTo_moves limit n (s.fire e))

theorem advanceTo_moves (s : Session) (limit : Nat) : Moves s.books [] (s.advanceTo limit).books :=
  (fireUpTo_moves limit _ s).trans (.single (.pass (b := books _) (Nat.le_max_left _ _)))

theorem sleep_moves (s : Session) (time : Duration) : Moves s.books [] (s.sleep time).books :=
  s.advanceTo_moves _

theorem mem_events_probe {s : Session} {due : Nat} :
    (due, Event.probe) ∈ s.events ↔ s.nextProbe? = some due := by
  rw [mem_events, nextProbe?, Option.bind_eq_some_iff]
  constructor
  · rintro (⟨-, h⟩ | ⟨_, _, hx, -⟩)
    · exact h
    · cases hx
  · exact fun h => .inl ⟨rfl, h⟩

theorem mem_events_expire {s : Session} {i due : Nat} :
    (due, Event.expire i) ∈ s.events ↔ s.transactions[i]?.bind Transaction.wake? = some due := by
  rw [mem_events, Option.bind_eq_some_iff]
  constructor
  · rintro (⟨hx, -⟩ | ⟨j, t, hj, h⟩)
    · cases hx
    · cases hj
      exact ⟨t, h⟩
  · rintro ⟨t, h⟩
    exact .inr ⟨i, t, rfl, h⟩

/-- An event that is asked to happen does if it is due. -/
theorem happen_cases (s : Session) (e : Event) :
    (∃ due ≤ s.clock, (due, e) ∈ s.events ∧ s.happen e = s.handle e) ∨
      (∀ due, (due, e) ∈ s.events → s.clock < due) ∧ s.happen e = s := by
  unfold happen
  split
  · rename_i h
    simp only [List.any_eq_true, Bool.and_eq_true, decide_eq_true_eq] at h
    obtain ⟨⟨due, e'⟩, hm, rfl, hd⟩ := h
    exact .inl ⟨due, hd, hm, rfl⟩
  · rename_i h
    refine .inr ⟨fun due hm => Nat.lt_of_not_le fun hd => h ?_, rfl⟩
    exact List.any_eq_true.2 ⟨(due, e), hm, by simpa using hd⟩

theorem happen_moves (s : Session) (e : Event) : Moves s.books [] (s.happen e).books := by
  obtain ⟨due, hd, hm, h⟩ | ⟨-, h⟩ := s.happen_cases e <;> rw [h]
  · exact handle_moves hm hd
  · exact .refl

/-! ## Calls on a transaction -/

theorem execute_moves {s : Session} {id : Nat} {t : Transaction} (statement : String)
    (ht : s.transactions[id]? = some t) :
    Moves s.books
      (if (s.execute id t statement).1.isNone then [⟨s.clock, id, .executed statement⟩] else [])
      (s.execute id t statement).2.books := by
  unfold execute Transaction.execute
  rcases hp : t.phase with ⟨pending, loan⟩ | ending
  · by_cases hd : t.deadline.passed s.clock
    · simp only [hd, if_true]
      exact .refl
    · simp only [hd]
      exact put_moves ht (.execute statement hp (by simpa using hd))
  · exact .refl

theorem giveBack_moves (s : Session) (id : Nat) : Moves s.books [] (s.giveBack id).books := by
  unfold giveBack
  rcases ht : s.transactions[id]? with _ | t
  · simp only [change, ht]
    exact .refl
  rcases hp : t.phase with ⟨pending, _ | _ | _⟩ | ending
  · rw [change_self ht (by simp only [Transaction.giveBack, hp])]
    exact .refl
  · have hx : t.giveBack s.cluster = ({ t with phase := .live pending .home }, s.cluster) := by
      simp only [Transaction.giveBack, hp]
    exact change_moves ht (.giveBack hp) (by rw [hx]) (by rw [hx, recordAt_id])
  · have hx : ∀ c, t.giveBack c = t.finish c .expired := fun c => by
      simp only [Transaction.giveBack, hp]
    obtain ⟨h1, h2⟩ := Transaction.accounts_finish hp s.cluster .expired
    exact change_moves ht (.expireLate hp) (by rw [hx, h1]) (by rw [hx, h2])
  · rw [change_self ht (by simp only [Transaction.giveBack, hp])]
    exact .refl

theorem executeAt_moves {s : Session} {id : Nat} {t : Transaction} (statement : String)
    (ht : s.transactions[id]? = some t) :
    Moves s.books
      (if (s.executeAt id statement).1.isNone then [⟨s.clock, id, .executed statement⟩] else [])
      (s.executeAt id statement).2.books := by
  simp only [executeAt, ht]
  exact execute_moves statement ht

theorem live_home {t : Transaction} (hl : t.isLent = false) {pending : List String} {loan : Loan}
    (hp : t.phase = .live pending loan) : t.phase = .live pending .home := by
  unfold Transaction.isLent at hl
  rw [hp] at hl ⊢
  cases loan with
  | home => rfl
  | lent => cases hl
  | awaited => cases hl

theorem isLent_of_home {t : Transaction} {pending : List String}
    (hp : t.phase = .live pending .home) : t.isLent = false := by
  unfold Transaction.isLent
  rw [hp]

theorem lend_moves {s : Session} {id : Nat} {t : Transaction} (ht : s.transactions[id]? = some t)
    (ho : t.owned = true) (hl : t.isLent = false) : Moves s.books [] (s.lend id t).2.books := by
  unfold lend Transaction.lend
  rcases hp : t.phase with ⟨pending, loan⟩ | ending
  · exact put_moves ht (.lend ho (live_home hl hp))
  · exact .refl

theorem commit_moves {s : Session} {id : Nat} {t : Transaction} (ht : s.transactions[id]? = some t)
    (hl : t.isLent = false) :
    Moves s.books ((Step.commit id).entries s.clock (s.commit id t).1) (s.commit id t).2.books := by
  unfold commit Transaction.commitFault?
  rcases hp : t.phase with ⟨pending, loan⟩ | ending
  · have hh := live_home hl hp
    by_cases hd : t.deadline.passed s.clock
    · simp only [hd, if_true]
      exact finish_moves ht hh (.refuse hh hd)
    · simp only [hd]
      exact finish_moves ht hh (.commit hh (by simpa using hd))
  · simp only
    rw [finish, change_self ht (by simp only [Transaction.finish, hp])]
    exact .refl

theorem rollBack_moves {s : Session} {id : Nat} {t : Transaction}
    (ht : s.transactions[id]? = some t) (hl : t.isLent = false) :
    Moves s.books [] (s.rollBack id t).2.books := by
  unfold rollBack Transaction.rollBackFault?
  rcases hp : t.phase with ⟨pending, loan⟩ | ending
  · have hh := live_home hl hp
    exact finish_moves ht hh (.rollBack hh)
  · exact .refl

/-! ## The clock -/

theorem clock_change (s : Session) (id : Nat) (f : Transaction → Cluster → Transaction × Cluster) :
    (s.change id f).clock = s.clock := by
  unfold change
  split <;> rfl

theorem clock_handle (s : Session) (e : Event) : (s.handle e).clock = s.clock := by
  cases e with
  | probe => simp only [handle]; split <;> rfl
  | expire id => exact s.clock_change id _

theorem clock_fireUpTo (limit : Nat) :
    ∀ (n : Nat) (s : Session), s.clock ≤ limit → (fireUpTo limit n s).clock ≤ limit
  | 0, _, h => h
  | n + 1, s, h => by
    simp only [fireUpTo]
    split
    · exact h
    · rename_i e he
      refine clock_fireUpTo limit n (s.fire e) ?_
      rw [fire, clock_handle]
      exact Nat.max_le.2 ⟨h, (nextEvent?_some he).2⟩

/-- A sleep ends when it should, however late it finds what is due. -/
@[simp] theorem clock_sleep (s : Session) (time : Duration) :
    (s.sleep time).clock = s.clock + time.nanos :=
  Nat.max_eq_right (clock_fireUpTo _ _ s (Nat.le_add_right _ _))

@[simp] theorem clock_executeAt (s : Session) (id : Nat) (statement : String) :
    (s.executeAt id statement).2.clock = s.clock := by
  unfold executeAt execute
  split
  · rfl
  · split <;> rfl

/-- A hold that gets the connection: it executes, lets a time pass, executes again, gives back and
lets what is due happen. -/
theorem hold_eq (s : Session) (id : Nat) (t : Transaction) (before : String) (time : Duration)
    (after : String) :
    (∃ why, s.hold id t before time after = (.failed why, s)) ∨
      ∃ s₁, s.lend id t = (none, s₁) ∧
        let s₂ := (s₁.executeAt id before).2.sleep time
        s.hold id t before time after =
          (.held (s₁.executeAt id before).1 (s₂.executeAt id after).1,
            ((s₂.executeAt id after).2.giveBack id).settle) := by
  unfold hold lend
  rcases t.lend with why | t'
  · exact .inl ⟨why, rfl⟩
  · exact .inr ⟨_, rfl, rfl⟩

theorem clock_lend (s : Session) (id : Nat) (t : Transaction) :
    (s.lend id t).2.clock = s.clock := by
  unfold lend
  split <;> rfl

theorem hold_moves {s : Session} {id : Nat} {t : Transaction} (before : String) (time : Duration)
    (after : String) (ht : s.transactions[id]? = some t) (ho : t.owned = true)
    (hl : t.isLent = false) :
    Moves s.books
      ((Step.hold id before time after).entries s.clock (s.hold id t before time after).1)
      (s.hold id t before time after).2.books := by
  rcases s.hold_eq id t before time after with ⟨why, h⟩ | ⟨s₁, hlend, h⟩
  · rw [h]
    exact .refl
  have hm := lend_moves ht ho hl
  have hnow := s.clock_lend id t
  rw [hlend] at hm hnow
  replace hnow : s₁.clock = s.clock := hnow
  obtain ⟨t₁, ht₁, -⟩ := hm.later ht
  have h₁ := executeAt_moves before ht₁
  have h₂ := (s₁.executeAt id before).2.sleep_moves time
  obtain ⟨t₂, ht₂, -⟩ := (h₁.trans h₂).later ht₁
  have h₃ := executeAt_moves after ht₂
  have h₄ := giveBack_moves (((s₁.executeAt id before).2.sleep time).executeAt id after).2 id
  have hall := ((((hm.trans h₁).trans h₂).trans h₃).trans h₄).trans (sleep_moves _ ⟨0⟩)
  simp only [clock_sleep, clock_executeAt, hnow, List.nil_append, List.append_nil] at hall
  rw [h]
  exact hall

/-! ## Requests -/

theorem onTransaction_eq (s : Session) (id : Nat) (f : Transaction → Answer × Session) :
    s.onTransaction id f = (.nothing, s) ∨
      ∃ t, s.transactions[id]? = some t ∧ t.owned = true ∧ s.onTransaction id f = f t := by
  unfold onTransaction
  rcases ht : s.transactions[id]? with _ | t
  · exact .inl rfl
  · cases ho : t.owned with
    | true => exact .inr ⟨t, rfl, ho, by simp [ho]⟩
    | false => exact .inl (by simp [ho])

theorem onOwner_eq (s : Session) (id : Nat) (f : Transaction → Answer × Session) :
    s.onOwner id f = (.nothing, s) ∨
      ∃ t, s.transactions[id]? = some t ∧ t.owned = true ∧ t.isLent = false ∧
        s.onOwner id f = f t := by
  unfold onOwner
  rcases s.onTransaction_eq id fun t => if t.isLent then (.nothing, s) else f t
    with h | ⟨t, ht, ho, h⟩
  · exact .inl h
  · rw [h]
    cases hl : t.isLent with
    | true => exact .inl rfl
    | false => exact .inr ⟨t, ht, ho, hl, rfl⟩

/-- An owner can use the transaction while its connection is home. -/
theorem onOwner_of_home {s : Session} {id : Nat} {t : Transaction}
    (ht : s.transactions[id]? = some t) (ho : t.owned = true) (hl : t.isLent = false)
    (f : Transaction → Answer × Session) : s.onOwner id f = f t := by
  simp only [onOwner, onTransaction, ht, ho, hl, if_true, Bool.false_eq_true, if_false]

/-- Nobody can, once the owner is gone or while the connection is lent. -/
theorem onOwner_of_away {s : Session} {id : Nat} {t : Transaction}
    (ht : s.transactions[id]? = some t) (hn : t.owned = false ∨ t.isLent = true)
    (f : Transaction → Answer × Session) : s.onOwner id f = (.nothing, s) := by
  simp only [onOwner, onTransaction, ht]
  rcases hn with ho | hl
  · simp only [ho, Bool.false_eq_true, if_false]
  · simp only [hl, if_true, ite_self]

/-- Calls for replicas change nothing but the node. -/
theorem picks_eq : ∀ (count : Nat) (s : Session),
    ∃ node, (picks count s).2 = { s with node }
  | 0, s => ⟨s.node, rfl⟩
  | count + 1, s => by
    simp only [picks]
    split
    · exact ⟨_, rfl⟩
    · rename_i n _
      obtain ⟨node, h⟩ := picks_eq count (s.pick n).2
      refine ⟨node, h.trans ?_⟩
      unfold pick
      split <;> rfl

theorem books_build (s : Session) (text : String) : (s.build text).2.books = s.books := by
  unfold build
  simp only
  split
  · rfl
  · rename_i settings _
    have h := Node.accounts_build settings s.clock s.generator s.cluster
    split <;> rename_i hb <;> rw [show s.dropNode.cluster = s.cluster from rfl,
      show s.dropNode.clock = s.clock from rfl,
      show s.dropNode.generator = s.generator from rfl] at hb
      <;> rw [hb] at h <;> simp only [books, dropNode] <;> rw [h]

theorem books_probe (s : Session) (n : Node) : (s.probe n).2.books = s.books := by
  simp only [probe, books, n.accounts_probe]

theorem beginOn_moves (s : Session) (server : String) (runtime : Duration) (expires : Bool)
    (h : expires = true → 0 < runtime.nanos) :
    Moves s.books [] (s.beginOn server runtime expires).2.books := by
  unfold beginOn
  rcases s.cluster.accounts_admitTransaction server with ⟨e, c, hc, ha⟩ | ⟨c, hc, ha⟩
  · rw [hc]
    simp only [books, ha]
    exact .refl
  · rw [hc]
    simp only [books, ha]
    exact .single (.enter (b := s.books) h)

theorem beginThrough_moves (s : Session) (n : Node) (requested : Duration) :
    Moves s.books [] (s.beginThrough n requested).2.books := by
  unfold beginThrough
  split
  · exact .refl
  · rename_i server _
    have h := s.beginOn_moves server requested.granted true fun _ => requested.granted_pos
    split <;> rename_i hb <;> rw [hb] at h <;> exact h

theorem onTransaction_moves {s : Session} {id : Nat} {f : Transaction → Answer × Session}
    (entries : Answer → List Entry) (hn : entries .nothing = [])
    (h : ∀ t, s.transactions[id]? = some t → Moves s.books (entries (f t).1) (f t).2.books) :
    Moves s.books (entries (s.onTransaction id f).1) (s.onTransaction id f).2.books := by
  rcases s.onTransaction_eq id f with hf | ⟨t, ht, -, hf⟩
  · rw [hf, hn]; exact .refl
  · rw [hf]; exact h t ht

theorem onOwner_moves {s : Session} {id : Nat} {f : Transaction → Answer × Session}
    (entries : Answer → List Entry) (hn : entries .nothing = [])
    (h : ∀ t, s.transactions[id]? = some t → t.owned = true → t.isLent = false →
      Moves s.books (entries (f t).1) (f t).2.books) :
    Moves s.books (entries (s.onOwner id f).1) (s.onOwner id f).2.books := by
  rcases s.onOwner_eq id f with hf | ⟨t, ht, ho, hl, hf⟩
  · rw [hf, hn]; exact .refl
  · rw [hf]; exact h t ht ho hl

/-! ## Steps aside -/

end Session

/-- A step that concerns servers or the node, or only looks at a transaction. -/
def Step.isAside : Step → Bool
  | .refuse _ _ _ => true
  | .inspect _ => true
  | .connect _ => true
  | .ping _ => true
  | .tune _ _ => true
  | .build _ => true
  | .drop => true
  | .close => true
  | .isClosed => true
  | .settings => true
  | .queue => true
  | .master => true
  | .replica => true
  | .replicas _ => true
  | .tableName _ _ => true
  | .strategy _ => true
  | .check => true
  | .takeFailures => true
  | .left _ => true
  | .isLive _ => true
  | _ => false

/-- A step that only looks. -/
def Step.isLook : Step → Bool
  | .inspect _ => true
  | .isClosed => true
  | .settings => true
  | .queue => true
  | .master => true
  | .tableName _ _ => true
  | .strategy _ => true
  | .left _ => true
  | .isLive _ => true
  | _ => false

theorem Step.entries_of_isAside {step : Step} (h : step.isAside = true) (now : Nat)
    (answer : Answer) : step.entries now answer = [] := by
  cases step with
  | execute | hold | commit => cases h
  | _ => rfl

namespace Session

/-- A step on the node keeps what it keeps with any node. -/
theorem onNode_keeps {α : Type} (g : Session → α) {s : Session} {f : Node → Answer × Session}
    (h : ∀ n, g (f n).2 = g s) : g (s.onNode f).2 = g s := by
  unfold onNode
  split
  · rfl
  · exact h _

theorem step_of_isLook (s : Session) {step : Step} (h : step.isLook = true) :
    (s.step step).2 = s := by
  cases step with
  | inspect => rfl
  | isClosed => exact onNode_keeps id fun _ => rfl
  | settings => exact onNode_keeps id fun _ => rfl
  | queue => exact onNode_keeps id fun _ => rfl
  | master => exact onNode_keeps id fun n => by split <;> rfl
  | tableName table keys => exact onNode_keeps id fun n => by split <;> rfl
  | strategy table => exact onNode_keeps id fun _ => rfl
  | left id =>
    obtain h | ⟨_, -, -, h⟩ :=
      s.onTransaction_eq id fun t => (.left (t.deadline.left s.clock), s) <;>
    exact congrArg Prod.snd h
  | isLive id =>
    obtain h | ⟨_, -, -, -, h⟩ := s.onOwner_eq id fun t => (.flag t.isLive, s) <;>
    exact congrArg Prod.snd h
  | _ => cases h

theorem step_connect (s : Session) (dsn : String) :
    (s.step (.connect dsn)).2 = { s with cluster := (s.cluster.connect dsn).2 } := by
  simp only [Session.step]
  split <;> rename_i hs <;> rw [hs]

/-- One call for a replica is a round of them. -/
theorem step_replica (s : Session) : (s.step .replica).2 = (picks 1 s).2 := by
  simp only [Session.step, onNode, picks]
  rcases hn : s.node with _ | n
  · rfl
  · simp only
    rcases s.pick n with ⟨_ | _, s'⟩ <;> rfl

/-- A step aside leaves the books alone. -/
theorem books_step_of_isAside (s : Session) {step : Step} (h : step.isAside = true) :
    (s.step step).2.books = s.books := by
  by_cases hl : step.isLook = true
  · rw [s.step_of_isLook hl]
  cases step with
  | refuse server what on => simp only [Session.step, books, Cluster.accounts_refuse]
  | connect dsn => simp only [step_connect, books, s.cluster.accounts_connect dsn]
  | ping server => simp only [Session.step, books, Cluster.accounts_ping]
  | tune server pool => simp only [Session.step, books, Cluster.accounts_tune]
  | build text => exact s.books_build text
  | drop | takeFailures => rfl
  | close => exact onNode_keeps books fun _ => rfl
  | check => exact onNode_keeps books fun n => s.books_probe n
  | replica =>
    obtain ⟨_, hp⟩ := picks_eq 1 s
    rw [step_replica, hp]
    rfl
  | replicas count =>
    obtain ⟨_, hp⟩ := picks_eq count s
    show (picks count s).2.books = s.books
    rw [hp]
    rfl
  | inspect | isClosed | settings | queue | master | tableName | strategy | left | isLive =>
    exact absurd rfl hl
  | _ => cases h

/-- A step's moves, with what its answer tells was done. -/
theorem step_moves (s : Session) (step : Step) :
    Moves s.books (step.entries s.clock (s.step step).1) (s.step step).2.books := by
  by_cases ha : step.isAside = true
  · rw [books_step_of_isAside s ha, Step.entries_of_isAside ha]
    exact .refl
  cases step with
  | sleep time => exact s.sleep_moves time
  | jump time => exact .single (.pass (b := s.books) (Nat.le_add_right _ _))
  | settle => exact s.sleep_moves ⟨0⟩
  | happen e => exact s.happen_moves e
  | beginOn server runtime =>
    have h := s.beginOn_moves server runtime false nofun
    simp only [Session.step]
    split <;> rename_i hb <;> rw [hb] at h <;> exact h
  | beginThrough requested =>
    simp only [Session.step, onNode]
    split
    · exact .refl
    · exact s.beginThrough_moves _ requested
  | execute id statement =>
    refine onTransaction_moves ((Step.execute id statement).entries s.clock) rfl
      fun t ht => ?_
    have h := execute_moves statement ht
    rcases hx : s.execute id t statement with ⟨_ | why, s'⟩ <;> rw [hx] at h <;> exact h
  | lend id =>
    exact onOwner_moves (fun _ => []) rfl fun _ ht ho hl => lend_moves ht ho hl
  | giveBack id =>
    exact onTransaction_moves (fun _ => []) rfl fun _ _ => s.giveBack_moves id
  | hold id before time after =>
    exact onOwner_moves ((Step.hold id before time after).entries s.clock) rfl
      fun _ ht ho hl => hold_moves before time after ht ho hl
  | commit id =>
    exact onOwner_moves ((Step.commit id).entries s.clock) rfl
      fun _ ht _ hl => commit_moves ht hl
  | rollBack id =>
    exact onOwner_moves (fun _ => []) rfl fun _ ht _ hl => rollBack_moves ht hl
  | disown id =>
    exact onOwner_moves (fun _ => []) rfl fun _ ht _ hl => put_moves ht (.disown hl)
  | _ => exact absurd rfl ha

/-- A node that begins a transaction grants it a runtime from now on. -/
theorem step_beginThrough {s : Session} {requested : Duration} {left : Int}
    (h : (s.step (.beginThrough requested)).1 = .begun left) :
    left = requested.granted.nanos ∧ ∃ server,
      (s.step (.beginThrough requested)).2.transactions[s.transactions.length]? =
        some { server, deadline := .after s.clock requested.granted, expires := true } := by
  simp only [step, onNode] at h ⊢
  rcases hn : s.node with _ | n
  · rw [hn] at h; cases h
  rw [hn] at h
  simp only [beginThrough] at h ⊢
  rcases hm : n.master? with err | server
  · rw [hm] at h; cases h
  rw [hm] at h
  simp only [beginOn] at h ⊢
  rcases ha : s.cluster.admitTransaction server with ⟨_ | e, c⟩
  · rw [ha] at h
    cases h
    exact ⟨rfl, server, getElem?_concat.2 (.inr ⟨rfl, rfl⟩)⟩
  · rw [ha] at h; cases h

/-! ## Runs -/

theorem run_append : ∀ (a b : List Step) (s : Session),
    (s.run (a ++ b)).2 = ((s.run a).2.run b).2
  | [], _, _ => rfl
  | step :: rest, b, s => run_append rest b (s.step step).2

theorem history_append : ∀ (a b : List Step) (s : Session),
    s.history (a ++ b) = s.history a ++ (s.run a).2.history b
  | [], _, _ => rfl
  | step :: rest, b, s => by
    show step.entries s.clock (s.step step).1 ++ (s.step step).2.history (rest ++ b) = _
    rw [history_append rest b, ← List.append_assoc]
    rfl

/-- A run's moves, with what its answers tell was done. -/
theorem run_moves : ∀ (steps : List Step) (s : Session),
    Moves s.books (s.history steps) (s.run steps).2.books
  | [], _ => .refl
  | step :: rest, s => (s.step_moves step).trans (run_moves rest (s.step step).2)

/-- A transaction that a node began keeps its deadline. -/
theorem run_beginThrough {s : Session} {requested : Duration} {left : Int}
    (h : (s.step (.beginThrough requested)).1 = .begun left) (after : List Step) :
    ∃ t, ((s.step (.beginThrough requested)).2.run after).2.transactions[s.transactions.length]? =
        some t ∧ t.expires = true ∧ t.deadline = .after s.clock requested.granted := by
  obtain ⟨-, server, hlast⟩ := step_beginThrough h
  obtain ⟨t, ht, hl⟩ := (run_moves after _).later hlast
  exact ⟨t, ht, hl.expires, hl.deadline⟩

end Session

end ReplicaRouter
