import ReplicaRouter.Proofs.Session.Books

/-! # Moves

A move is the least thing that can happen to the books: the clock passes, a transaction begins, or a
transaction that exists undergoes one `Change`. Each move is labelled with what it answers for: a
statement executed or a commit done.

* `Session.history` reads such labels off the answers of a run: an execution or a commit counts if
  it was answered as done.
* `Moves.keep`: what every move keeps, moves keep. `Moves.each` is its case of a property that every
  transaction has by itself.
* `Moves.later`: moves leave a transaction its server, its deadline and, once it has one, its
  ending.
-/

namespace ReplicaRouter

/-- What is done to a transaction and can show in a log. -/
inductive Deed
  | executed (statement : String)
  | committed
deriving DecidableEq

/-- A deed, the transaction's place and the instant. -/
structure Entry where
  time : Nat
  id : Nat
  deed : Deed
deriving DecidableEq

/-- What a step's answer tells was done, if the clock read `now` when the step was taken. -/
def Step.entries (now : Nat) : Step → Answer → List Entry
  | .execute id statement, .done => [⟨now, id, .executed statement⟩]
  | .hold id before time after, .held first second =>
    (if first.isNone then [⟨now, id, .executed before⟩] else [])
      ++ if second.isNone then [⟨now + time.nanos, id, .executed after⟩] else []
  | .commit id, .done => [⟨now, id, .committed⟩]
  | _, _ => []

/-- What the answers of a run tell was done, in order. -/
def Session.history : Session → List Step → List Entry
  | _, [] => []
  | s, step :: rest =>
    let (answer, s') := s.step step
    step.entries s.clock answer ++ s'.history rest

/-- What a transaction can undergo at an instant, with the deed done and the effect on its server's
account. -/
inductive Change (now : Nat) (t : Transaction) :
    Option Deed → Transaction → (Account → Account) → Prop
  | execute {pending : List String} {loan : Loan} (statement : String)
      (ht : t.phase = .live pending loan) (hd : t.deadline.passed now = false) :
      Change now t (some (.executed statement))
        { t with phase := .live (pending ++ [statement]) loan } id
  | lend {pending : List String} (ho : t.owned = true) (ht : t.phase = .live pending .home) :
      Change now t none { t with phase := .live pending .lent } id
  | giveBack {pending : List String} (ht : t.phase = .live pending .lent) :
      Change now t none { t with phase := .live pending .home } id
  /-- The deadline comes while the connection is lent. -/
  | await {pending : List String} (ht : t.phase = .live pending .lent) (he : t.expires = true)
      (hd : t.deadline.passed now = true) :
      Change now t none { t with phase := .live pending .awaited } id
  | commit {pending : List String} (ht : t.phase = .live pending .home)
      (hd : t.deadline.passed now = false) :
      Change now t (some .committed) { t with phase := .finished .committed }
        (Ending.committed.effect pending)
  | refuse {pending : List String} (ht : t.phase = .live pending .home)
      (hd : t.deadline.passed now = true) :
      Change now t none { t with phase := .finished .refused } (Ending.refused.effect pending)
  | rollBack {pending : List String} (ht : t.phase = .live pending .home) :
      Change now t none { t with phase := .finished .rolledBack }
        (Ending.rolledBack.effect pending)
  /-- The deadline comes while the connection is home. -/
  | expire {pending : List String} (ht : t.phase = .live pending .home) (he : t.expires = true)
      (hd : t.deadline.passed now = true) :
      Change now t none { t with phase := .finished .expired } (Ending.expired.effect pending)
  /-- The connection comes home to a deadline that waits. -/
  | expireLate {pending : List String} (ht : t.phase = .live pending .awaited) :
      Change now t none { t with phase := .finished .expired } (Ending.expired.effect pending)
  | disown (hl : t.isLent = false) : Change now t none { t with owned := false } id

/-- One thing that can happen to the books, with what was done. -/
inductive Move : Books → List Entry → Books → Prop
  | pass {b : Books} {now : Nat} (h : b.clock ≤ now) : Move b [] { b with clock := now }
  | enter {b : Books} {server : String} {runtime : Duration} {expires : Bool}
      (h : expires = true → 0 < runtime.nanos) :
      Move b []
        { b with
          transactions :=
            b.transactions ++ [{ server, deadline := .after b.clock runtime, expires }]
          account := recordAt server .beginOne b.account }
  | change {b : Books} {id : Nat} {t t' : Transaction} {deed : Option Deed}
      {f : Account → Account} (ht : b.transactions[id]? = some t)
      (hc : Change b.clock t deed t' f) :
      Move b (deed.toList.map (⟨b.clock, id, ·⟩))
        { b with
          transactions := b.transactions.set id t'
          account := recordAt t.server f b.account }

/-- Moves one after another, with all that was done. -/
inductive Moves : Books → List Entry → Books → Prop
  | refl {b : Books} : Moves b [] b
  | tail {b b' b'' : Books} {h e : List Entry} : Moves b h b' → Move b' e b'' → Moves b (h ++ e) b''

/-! ## The transactions after a move -/

theorem getElem?_concat {l : List Transaction} {t t' : Transaction} {id : Nat} :
    (l ++ [t'])[id]? = some t ↔ l[id]? = some t ∨ id = l.length ∧ t = t' := by
  rcases Nat.lt_trichotomy id l.length with h | rfl | h
  · rw [List.getElem?_append_left h]
    exact ⟨.inl, fun h' => h'.resolve_right fun h'' => by omega⟩
  · simp [eq_comm]
  · rw [List.getElem?_eq_none (by simp; omega), List.getElem?_eq_none (by omega)]
    constructor
    · intro h'
      cases h'
    · rintro (h' | ⟨h', -⟩)
      · cases h'
      · omega

theorem getElem?_set_of {l : List Transaction} {i id : Nat} {t t' t'' : Transaction}
    (ht : l[i]? = some t) :
    (l.set i t')[id]? = some t'' ↔ id = i ∧ t'' = t' ∨ id ≠ i ∧ l[id]? = some t'' := by
  have hi := (List.getElem?_eq_some_iff.1 ht).1
  by_cases h : id = i
  · subst h
    simp [hi, eq_comm]
  · simp [List.getElem?_set_ne (Ne.symm h), h]

/-- What stays of a transaction, whatever it undergoes: where it is, its deadline and, once it has
one, its ending. -/
structure Transaction.Later (t t' : Transaction) : Prop where
  server : t'.server = t.server
  deadline : t'.deadline = t.deadline
  expires : t'.expires = t.expires
  finished : ∀ ending, t.phase = .finished ending → t'.phase = .finished ending

theorem Transaction.Later.refl (t : Transaction) : t.Later t := ⟨rfl, rfl, rfl, fun _ h => h⟩

theorem Transaction.Later.trans {t t' t'' : Transaction} (h : t.Later t') (h' : t'.Later t'') :
    t.Later t'' :=
  ⟨h'.server.trans h.server, h'.deadline.trans h.deadline, h'.expires.trans h.expires,
    fun e he => h'.finished e (h.finished e he)⟩

theorem Change.later {now : Nat} {t t' : Transaction} {deed : Option Deed}
    {f : Account → Account} (hc : Change now t deed t' f) : t.Later t' := by
  cases hc with
  | disown => exact ⟨rfl, rfl, rfl, fun _ h => h⟩
  | _ => exact ⟨rfl, rfl, rfl, fun _ h => by simp_all⟩

theorem Move.later {b b' : Books} {e : List Entry} (hm : Move b e b') {id : Nat} {t : Transaction}
    (ht : b.transactions[id]? = some t) : ∃ t', b'.transactions[id]? = some t' ∧ t.Later t' := by
  cases hm with
  | pass => exact ⟨t, ht, .refl t⟩
  | enter => exact ⟨t, getElem?_concat.2 (.inl ht), .refl t⟩
  | @change i u u' _ _ hu hc =>
    by_cases h : id = i
    · subst h
      obtain rfl : u = t := Option.some.inj (hu.symm.trans ht)
      exact ⟨u', (getElem?_set_of hu).2 (.inl ⟨rfl, rfl⟩), hc.later⟩
    · exact ⟨t, (getElem?_set_of hu).2 (.inr ⟨h, ht⟩), .refl t⟩

theorem Move.clock_le {b b' : Books} {e : List Entry} (hm : Move b e b') : b.clock ≤ b'.clock := by
  cases hm with
  | pass h => exact h
  | enter => exact Nat.le_refl _
  | change => exact Nat.le_refl _

namespace Moves

theorem single {b b' : Books} {e : List Entry} (h : Move b e b') : Moves b e b' := .tail .refl h

theorem trans {b b' b'' : Books} {h h' : List Entry} (hm : Moves b h b') (hm' : Moves b' h' b'') :
    Moves b (h ++ h') b'' := by
  induction hm' with
  | refl => rwa [List.append_nil]
  | tail _ hs ih => rw [← List.append_assoc]; exact .tail ih hs

/-- What every move keeps, moves keep. The property speaks of all that was done so far. -/
theorem keep {P : List Entry → Books → Prop} {b b' : Books} {h h' : List Entry}
    (hm : Moves b h' b') (hb : P h b)
    (step : ∀ {h b e b'}, P h b → Move b e b' → P (h ++ e) b') : P (h ++ h') b' := by
  induction hm with
  | refl => rwa [List.append_nil]
  | tail _ hs ih => rw [← List.append_assoc]; exact step ih hs

theorem preserve {P : Books → Prop} {b b' : Books} {h : List Entry} (hm : Moves b h b') (hb : P b)
    (step : ∀ {b e b'}, P b → Move b e b' → P b') : P b' :=
  keep (P := fun _ => P) (h := []) hm hb step

/-- Moves forget no transaction. -/
theorem later {b b' : Books} {h : List Entry} (hm : Moves b h b') {id : Nat} {t : Transaction}
    (ht : b.transactions[id]? = some t) : ∃ t', b'.transactions[id]? = some t' ∧ t.Later t' := by
  refine hm.preserve (P := fun b' => ∃ t', b'.transactions[id]? = some t' ∧ t.Later t')
    ⟨t, ht, .refl t⟩ ?_
  rintro _ _ _ ⟨t', ht', hl⟩ hs
  obtain ⟨t'', ht'', hl'⟩ := hs.later ht'
  exact ⟨t'', ht'', hl.trans hl'⟩

/-- Moves never turn the clock back. -/
theorem clock_le {b b' : Books} {h : List Entry} (hm : Moves b h b') : b.clock ≤ b'.clock :=
  hm.preserve (P := fun b' => b.clock ≤ b'.clock) (Nat.le_refl _)
    fun hb hs => Nat.le_trans hb hs.clock_le

/-- What holds of every transaction, if it holds of a new one and neither the clock nor a change
spoils it. -/
theorem each {P : Nat → Transaction → Prop}
    (pass : ∀ {now now' t}, now ≤ now' → P now t → P now' t)
    (enter : ∀ {now server deadline expires}, P now { server, deadline, expires })
    (change : ∀ {now t t' deed f}, Change now t deed t' f → P now t → P now t')
    {b b' : Books} {h : List Entry} (hm : Moves b h b')
    (hb : ∀ (id : Nat) (t : Transaction), b.transactions[id]? = some t → P b.clock t) :
    ∀ (id : Nat) (t : Transaction), b'.transactions[id]? = some t → P b'.clock t := by
  refine hm.preserve (P := fun b => ∀ (id : Nat) (t : Transaction),
    b.transactions[id]? = some t → P b.clock t) hb ?_
  intro b e b' hi hs id t ht
  cases hs with
  | pass hn => exact pass hn (hi id t ht)
  | enter =>
    rcases getElem?_concat.1 ht with ht | ⟨-, rfl⟩
    · exact hi id t ht
    · exact enter
  | change hu hc =>
    rcases (getElem?_set_of hu).1 ht with ⟨-, rfl⟩ | ⟨-, ht⟩
    · exact change hc (hi _ _ hu)
    · exact hi id t ht

end Moves

end ReplicaRouter
