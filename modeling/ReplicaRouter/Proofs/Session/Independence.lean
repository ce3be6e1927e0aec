import ReplicaRouter.Proofs.Session.Counters
import ReplicaRouter.Proofs.Session.Premises
import ReplicaRouter.Proofs.Session.StatementLog

/-! # Independence

What becomes of a transaction is up to the clock and the calls on it, and to nothing else in its
session.

* `Session.step_localTo`: a call's answer, what it makes of the transaction and its effect on the
  server's account depend on nothing but the clock's reading and the transaction.
* `Session.transactions_advanceTo`: letting a time pass does to each transaction what its own
  deadline says.
* `Session.books_sleep_congr`: so sessions with the same books have the same books after a sleep,
  whatever nodes and probes they have.
-/

namespace ReplicaRouter

/-! ## Calls -/

/-- What a function makes of the transaction and of its server's account is the same for every
cluster. -/
def Transaction.Uniform (t : Transaction) (f : Transaction → Cluster → Transaction × Cluster) :
    Prop :=
  ∃ (t' : Transaction) (g : Account → Account), ∀ c, (f t c).1 = t' ∧
    (f t c).2.accounts = recordAt t.server g c.accounts

namespace Transaction

theorem uniform_of_same {t : Transaction} {f : Transaction → Cluster → Transaction × Cluster}
    (h : ∀ c, f t c = ((f t {}).1, c)) : t.Uniform f :=
  ⟨(f t {}).1, id, fun c => by rw [h, recordAt_id]; exact ⟨rfl, rfl⟩⟩

theorem uniform_finish (t : Transaction) (ending : Ending) :
    t.Uniform fun t c => t.finish c ending := by
  rcases hp : t.phase with ⟨pending, loan⟩ | e
  · exact ⟨_, _, fun c => accounts_finish hp c ending⟩
  · exact uniform_of_same fun c => by simp only [finish, hp]

theorem uniform_expire (t : Transaction) : t.Uniform expire := by
  rcases hp : t.phase with ⟨pending, _ | _ | _⟩ | e
  · obtain ⟨t', g, h⟩ := t.uniform_finish .expired
    exact ⟨t', g, fun c => by simp only [expire, hp]; exact h c⟩
  · exact uniform_of_same fun c => by simp only [expire, hp]
  · exact uniform_of_same fun c => by simp only [expire, hp]
  · exact uniform_of_same fun c => by simp only [expire, hp]

theorem uniform_giveBack (t : Transaction) : t.Uniform giveBack := by
  rcases hp : t.phase with ⟨pending, _ | _ | _⟩ | e
  · exact uniform_of_same fun c => by simp only [giveBack, hp]
  · exact uniform_of_same fun c => by simp only [giveBack, hp]
  · obtain ⟨t', g, h⟩ := t.uniform_finish .expired
    exact ⟨t', g, fun c => by simp only [giveBack, hp]; exact h c⟩
  · exact uniform_of_same fun c => by simp only [giveBack, hp]

end Transaction

namespace Session

/-- The answer, what becomes of the transaction at a place and the effect on its server's account
depend on nothing but the clock's reading and the transaction. -/
def LocalTo (now i : Nat) (t : Transaction) (f : Session → Answer × Session) : Prop :=
  ∃ (answer : Answer) (t' : Transaction) (g : Account → Account), ∀ s : Session, s.clock = now →
    s.transactions[i]? = some t → (f s).1 = answer ∧
      (f s).2.books = ⟨now, s.transactions.set i t', recordAt t.server g s.cluster.accounts⟩

section
variable {now i : Nat} {t : Transaction}

theorem localTo_put (answer : Answer) (t' : Transaction) :
    LocalTo now i t fun s => (answer, s.put i t') := by
  refine ⟨answer, t', id, fun s hnow _ => ⟨rfl, ?_⟩⟩
  rw [recordAt_id, ← hnow]
  rfl

theorem localTo_change (answer : Answer) {f : Transaction → Cluster → Transaction × Cluster}
    (h : t.Uniform f) : LocalTo now i t fun s => (answer, s.change i f) := by
  obtain ⟨t', g, hf⟩ := h
  refine ⟨answer, t', g, fun s hnow ht => ⟨rfl, ?_⟩⟩
  obtain ⟨h1, h2⟩ := hf s.cluster
  simp only [change, ht, books, put, h1, h2, hnow]

theorem LocalTo.congr {f f' : Session → Answer × Session} (h : LocalTo now i t f)
    (hf : ∀ s : Session, s.clock = now → s.transactions[i]? = some t → f' s = f s) :
    LocalTo now i t f' := by
  obtain ⟨answer, t', g, hs⟩ := h
  refine ⟨answer, t', g, fun s hnow ht => ?_⟩
  rw [hf s hnow ht]
  exact hs s hnow ht

theorem localTo_same (answer : Answer) : LocalTo now i t fun s => (answer, s) :=
  (localTo_put answer t).congr fun s _ ht => by rw [put_self ht]

theorem LocalTo.onTransaction {f : Session → Transaction → Answer × Session}
    (h : LocalTo now i t fun s => f s t) : LocalTo now i t fun s => s.onTransaction i (f s) := by
  cases ho : t.owned with
  | true =>
    refine h.congr fun s _ ht => ?_
    simp only [Session.onTransaction, ht, ho, if_true]
  | false =>
    refine (localTo_same .nothing).congr fun s _ ht => ?_
    simp only [Session.onTransaction, ht, ho, Bool.false_eq_true, if_false]

theorem LocalTo.onOwner {f : Session → Transaction → Answer × Session}
    (h : LocalTo now i t fun s => f s t) : LocalTo now i t fun s => s.onOwner i (f s) := by
  apply LocalTo.onTransaction
  cases hl : t.isLent with
  | true => exact (localTo_same .nothing).congr fun s _ _ => if_pos rfl
  | false => exact h.congr fun s _ _ => if_neg Bool.false_ne_true

end

/-- A deadline that is asked to act does if it is due. -/
theorem happen_expire {s : Session} {i : Nat} {t : Transaction}
    (ht : s.transactions[i]? = some t) :
    s.happen (.expire i) =
      if t.wake?.any (· ≤ s.clock) then s.change i Transaction.expire else s := by
  have hmem : ∀ due, (due, Event.expire i) ∈ s.events ↔ t.wake? = some due := fun due => by
    rw [mem_events_expire, ht, Option.bind_some]
  obtain ⟨due, hd, hm, h⟩ | ⟨hlate, h⟩ := s.happen_cases (.expire i)
  · rw [h, (hmem due).1 hm, Option.any_some, if_pos (decide_eq_true hd)]
    rfl
  · rw [h, if_neg]
    intro hany
    obtain ⟨due, hd, hle⟩ := (Option.any_eq_true _ _).1 hany
    exact Nat.not_le_of_lt (hlate due ((hmem due).2 hd)) (of_decide_eq_true hle)

end Session

/-- The transaction that a call concerns, or the deadline's event or the loss of its owner. A hold
counts as none: it is made of calls. -/
def Step.subject? : Step → Option Nat
  | .happen (.expire i) => some i
  | .left i => some i
  | .isLive i => some i
  | .execute i _ => some i
  | .lend i => some i
  | .giveBack i => some i
  | .commit i => some i
  | .rollBack i => some i
  | .disown i => some i
  | _ => none

namespace Session

/-- What a call does depends on the clock's reading and the transaction alone. -/
theorem step_localTo {step : Step} {i : Nat} (h : step.subject? = some i) (now : Nat)
    (t : Transaction) : LocalTo now i t fun s => s.step step := by
  cases step with
  | left j =>
    obtain rfl := Option.some.inj h
    apply LocalTo.onTransaction (f := fun s t => (.left (t.deadline.left s.clock), s))
    refine (localTo_same (.left (t.deadline.left now))).congr fun s hnow _ => ?_
    rw [hnow]
  | isLive j =>
    obtain rfl := Option.some.inj h
    exact LocalTo.onOwner (f := fun s t => (.flag t.isLive, s)) (localTo_same _)
  | execute j statement =>
    obtain rfl := Option.some.inj h
    apply LocalTo.onTransaction
      (f := fun s t => (outcome (s.execute j t statement).1, (s.execute j t statement).2))
    rcases hx : t.execute now statement with why | t'
    · refine (localTo_same (outcome (some why))).congr fun s hnow _ => ?_
      simp only [execute, hnow, hx]
    · refine (localTo_put (outcome none) t').congr fun s hnow _ => ?_
      simp only [execute, hnow, hx]
  | lend j =>
    obtain rfl := Option.some.inj h
    apply LocalTo.onOwner (f := fun s t => (outcome (s.lend j t).1, (s.lend j t).2))
    rcases hx : t.lend with why | t'
    · refine (localTo_same (outcome (some why))).congr fun s _ _ => ?_
      simp only [lend, hx]
    · refine (localTo_put (outcome none) t').congr fun s _ _ => ?_
      simp only [lend, hx]
  | giveBack j =>
    obtain rfl := Option.some.inj h
    apply LocalTo.onTransaction (f := fun s _ => (.nothing, s.giveBack j))
    exact localTo_change .nothing t.uniform_giveBack
  | commit j =>
    obtain rfl := Option.some.inj h
    apply LocalTo.onOwner (f := fun s t => s.commit j t)
    rcases hx : t.commitFault? now with _ | why
    · refine (localTo_change .done (t.uniform_finish .committed)).congr fun s hnow _ => ?_
      simp only [commit, hnow, hx]
      rfl
    · refine (localTo_change (.failed why) (t.uniform_finish .refused)).congr fun s hnow _ => ?_
      simp only [commit, hnow, hx]
      rfl
  | rollBack j =>
    obtain rfl := Option.some.inj h
    apply LocalTo.onOwner (f := fun s t => s.rollBack j t)
    rcases hx : t.rollBackFault? with _ | why
    · refine (localTo_change .done (t.uniform_finish .rolledBack)).congr fun s _ _ => ?_
      simp only [rollBack, hx]
      rfl
    · refine (localTo_same (.failed why)).congr fun s _ _ => ?_
      simp only [rollBack, hx]
  | disown j =>
    obtain rfl := Option.some.inj h
    apply LocalTo.onOwner (f := fun s t => (.nothing, s.put j { t with owned := false }))
    exact localTo_put .nothing _
  | happen e =>
    cases e with
    | probe => cases h
    | expire j =>
      obtain rfl := Option.some.inj h
      cases hdue : t.wake?.any (· ≤ now) with
      | true =>
        refine (localTo_change .nothing t.uniform_expire).congr fun s hnow ht => ?_
        simp only [step, happen_expire ht, hnow, hdue, if_true]
      | false =>
        refine (localTo_same .nothing).congr fun s hnow ht => ?_
        simp only [step, happen_expire ht, hnow, hdue, Bool.false_eq_true, if_false]
  | _ => cases h

/-- A call on a transaction that does not exist does nothing. -/
theorem step_of_none {s : Session} {i : Nat} (ht : s.transactions[i]? = none) {step : Step}
    (h : step.subject? = some i) : s.step step = (.nothing, s) := by
  cases step with
  | happen e =>
    cases e with
    | probe => cases h
    | expire j =>
      obtain rfl := Option.some.inj h
      have hnone : s.happen (.expire j) = s := by
        obtain ⟨due, -, hm, -⟩ | ⟨-, h⟩ := s.happen_cases (.expire j)
        · rw [mem_events_expire, ht] at hm
          cases hm
        · exact h
      simp only [step, hnone]
  | left | isLive | execute | lend | giveBack | commit | rollBack | disown =>
    obtain rfl := Option.some.inj h
    simp only [step, onOwner, onTransaction, ht]
  | _ => cases h

/-! ## Time -/

theorem length_handle (s : Session) (e : Event) :
    (s.handle e).transactions.length = s.transactions.length := by
  cases e with
  | probe =>
    simp only [handle]
    split <;> rfl
  | expire i =>
    simp only [handle, change]
    split
    · rfl
    · exact List.length_set

theorem length_fireUpTo (limit : Nat) : ∀ (fuel : Nat) (s : Session),
    (fireUpTo limit fuel s).transactions.length = s.transactions.length
  | 0, _ => rfl
  | fuel + 1, s => by
    simp only [fireUpTo]
    split
    · rfl
    · rw [length_fireUpTo limit fuel, fire, length_handle]

/-- Once a time has passed, the deadlines in it have acted, and nothing else has. -/
theorem transactions_advanceTo (s : Session) (limit : Nat) :
    (s.advanceTo limit).transactions = s.transactions.map (Transaction.upTo limit) := by
  have hlength : (s.advanceTo limit).transactions.length = s.transactions.length :=
    length_fireUpTo limit _ s
  apply List.ext_getElem?
  intro i
  rw [List.getElem?_map]
  rcases ht : s.transactions[i]? with _ | t
  · rw [List.getElem?_eq_none_iff] at ht
    rw [List.getElem?_eq_none (by omega), Option.map_none]
  · exact getElem?_advanceTo ht limit

end Session

/-- Quiet moves that make the same of the same transactions make the same of the accounts. -/
theorem Moves.account_congr {b₁ b₁' b₂ b₂' : Books} (h₁ : Moves b₁ [] b₁') (h₂ : Moves b₂ [] b₂')
    (ha : b₂.account = b₁.account) (ht : b₂.transactions = b₁.transactions)
    (ht' : b₂'.transactions = b₁'.transactions) : b₂'.account = b₁'.account := by
  funext addr
  obtain ⟨hb₁, hc₁, hr₁⟩ := h₁.balance addr
  obtain ⟨hb₂, hc₂, hr₂⟩ := h₂.balance addr
  have hs₁ := h₁.statements_of_quiet addr
  have hs₂ := h₂.statements_of_quiet addr
  rw [ha, ht, ht'] at hb₂ hc₂ hr₂
  rw [ha, ← hs₁] at hs₂
  rcases hv₁ : b₁'.account addr with ⟨begins, commits, rollbacks, statements⟩
  rcases hv₂ : b₂'.account addr with ⟨begins', commits', rollbacks', statements'⟩
  rw [hv₁] at hb₁ hc₁ hr₁ hs₂
  rw [hv₂] at hb₂ hc₂ hr₂ hs₂
  simp only at hb₁ hb₂ hc₁ hc₂ hr₁ hr₂ hs₂
  rw [Account.mk.injEq]
  exact ⟨by omega, by omega, by omega, hs₂⟩

namespace Session

/-- What letting a time pass makes of the books is up to the books. -/
theorem books_sleep_congr {s s' : Session} (h : s'.books = s.books) (time : Duration) :
    (s'.sleep time).books = (s.sleep time).books := by
  have hnow : s'.clock = s.clock := congrArg Books.clock h
  have htransactions : s'.transactions = s.transactions := congrArg Books.transactions h
  have hmap : (s'.sleep time).transactions = (s.sleep time).transactions := by
    rw [sleep, sleep, transactions_advanceTo, transactions_advanceTo, hnow, htransactions]
  have haccount := (s.sleep_moves time).account_congr (s'.sleep_moves time)
    (congrArg Books.account h) htransactions hmap
  rw [books, books, Books.mk.injEq, clock_sleep, clock_sleep, hnow]
  exact ⟨rfl, hmap, haccount⟩

end Session

end ReplicaRouter
