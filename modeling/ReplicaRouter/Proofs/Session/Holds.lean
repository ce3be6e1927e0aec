import ReplicaRouter.Proofs.Session.Alarms

/-! # Holds

A hold is made of other steps: the loan, two executions with a sleep between them, the return, and
what is due then.

* `Session.step_hold`: a hold that gets the connection is a run of its parts, and one that does not
  is the loan that fails.
* `Session.run_unheld`: so a run comes to the same without its holds, each replaced by its parts.
* `Notes`: what is noted down of such a run, event by event and step by step. What each event and
  each step keeps of the notes, a run keeps (`Notes.Keeps.ofRun`).
-/

namespace ReplicaRouter

def Step.isHold : Step → Bool
  | .hold _ _ _ _ => true
  | _ => false

/-- The steps that a hold is made of. -/
def Step.partsOfHold (id : Nat) (before : String) (time : Duration) (after : String) : List Step :=
  [.lend id, .execute id before, .sleep time, .execute id after, .giveBack id, .settle]

namespace Session

/-- The transaction at a place has its owner. -/
def OwnedAt (s : Session) (id : Nat) : Prop :=
  ∃ t, s.transactions[id]? = some t ∧ t.owned = true

theorem ownedAt_put {s : Session} {id : Nat} {t t' : Transaction}
    (ht : s.transactions[id]? = some t) (ho : t'.owned = true) : (s.put id t').OwnedAt id :=
  ⟨t', List.getElem?_set_self (List.getElem?_eq_some_iff.1 ht).1, ho⟩

theorem ownedAt_executeAt {s : Session} {id : Nat} (h : s.OwnedAt id) (statement : String) :
    (s.executeAt id statement).2.OwnedAt id := by
  obtain ⟨t, ht, ho⟩ := h
  simp only [executeAt, ht, execute, Transaction.execute]
  rcases t.phase with ⟨pending, loan⟩ | ending
  · by_cases hd : t.deadline.passed s.clock = true
    · simp only [hd, if_true]
      exact ⟨t, ht, ho⟩
    · simp only [hd]
      exact ownedAt_put ht ho
  · exact ⟨t, ht, ho⟩

theorem ownedAt_sleep {s : Session} {id : Nat} (h : s.OwnedAt id) (time : Duration) :
    (s.sleep time).OwnedAt id := by
  obtain ⟨t, ht, ho⟩ := h
  refine ⟨_, getElem?_advanceTo ht (s.clock + time.nanos), ?_⟩
  unfold Transaction.upTo
  split
  · obtain ⟨server, deadline, expires, owned, phase⟩ := t
    rcases phase with ⟨pending, _ | _ | _⟩ | ending <;> exact ho
  · exact ho

theorem step_execute_owned {s : Session} {id : Nat} (h : s.OwnedAt id) (statement : String) :
    s.step (.execute id statement) =
      (outcome (s.executeAt id statement).1, (s.executeAt id statement).2) := by
  obtain ⟨t, ht, ho⟩ := h
  simp only [step, onTransaction, executeAt, ht, ho, if_true]

theorem step_giveBack_owned {s : Session} {id : Nat} (h : s.OwnedAt id) :
    s.step (.giveBack id) = (.nothing, s.giveBack id) := by
  obtain ⟨t, ht, ho⟩ := h
  simp only [step, onTransaction, ht, ho, if_true]

/-- A hold that does not get the connection is the loan that fails. One that does is a run of its
parts. -/
theorem step_hold (s : Session) (id : Nat) (before : String) (time : Duration) (after : String) :
    (∃ why : Option Fault, s.step (.lend id) = (why.elim .nothing .failed, s) ∧
      s.step (.hold id before time after) = (why.elim .nothing .failed, s)) ∨
    ∃ first second s', s.step (.hold id before time after) = (.held first second, s') ∧
      s.run (Step.partsOfHold id before time after) =
        ([.done, outcome first, .nothing, outcome second, .nothing, .nothing], s') := by
  rcases ht : s.transactions[id]? with _ | t
  · left
    refine ⟨none, ?_⟩
    simp only [step, onOwner, onTransaction, ht]
    exact ⟨rfl, rfl⟩
  by_cases haway : t.owned = false ∨ t.isLent = true
  · left
    refine ⟨none, ?_⟩
    simp only [step, onOwner_of_away ht haway]
    exact ⟨rfl, rfl⟩
  obtain ⟨ho, hl⟩ : t.owned = true ∧ t.isLent = false := by simpa using haway
  have htake := onOwner_of_home ht ho hl
  rcases hx : t.lend with why | t₁
  · left
    refine ⟨some why, ?_⟩
    simp only [step, htake, hold, lend, hx, outcome]
    exact ⟨rfl, rfl⟩
  right
  have h₁ : (s.put id t₁).OwnedAt id := by
    refine ownedAt_put ht ?_
    unfold Transaction.lend at hx
    split at hx
    · cases hx
    · cases hx
      exact ho
  have h₂ := ownedAt_executeAt h₁ before
  have h₃ := ownedAt_sleep h₂ time
  have h₄ := ownedAt_executeAt h₃ after
  have hlend : s.step (.lend id) = (.done, s.put id t₁) := by
    simp only [step, htake, lend, hx, outcome]
  have hsleep : ∀ (s : Session) time, s.step (.sleep time) = (.nothing, s.sleep time) :=
    fun _ _ => rfl
  have hsettle : ∀ s : Session, s.step .settle = (.nothing, s.settle) := fun _ => rfl
  refine ⟨((s.put id t₁).executeAt id before).1,
    ((((s.put id t₁).executeAt id before).2.sleep time).executeAt id after).1,
    (((((s.put id t₁).executeAt id before).2.sleep time).executeAt id after).2.giveBack
      id).settle, ?_, ?_⟩
  · simp only [step, htake, hold, lend, hx]
  · simp only [Step.partsOfHold, run, hlend, step_execute_owned h₁, hsleep, step_execute_owned h₃,
      step_giveBack_owned h₄, hsettle]

/-- A hold leaves the session as it was or as its parts leave it. -/
theorem hold_keeps {P : Session → Prop} {s : Session} {id : Nat} {before : String} {time : Duration}
    {after : String} (h : P s) (hparts : P (s.run (Step.partsOfHold id before time after)).2) :
    P (s.step (.hold id before time after)).2 := by
  rcases s.step_hold id before time after with ⟨_, -, heq⟩ | ⟨_, _, _, heq, hrun⟩
  · rw [heq]
    exact h
  · rw [hrun] at hparts
    rw [heq]
    exact hparts

/-- Two sessions that answer the parts of a hold alike answer the hold alike. -/
theorem hold_congr {R : Session → Session → Prop} {id : Nat} {before : String} {time : Duration}
    {after : String}
    (hparts : ∀ step ∈ Step.partsOfHold id before time after, ∀ s s', R s s' →
      (s'.step step).1 = (s.step step).1 ∧ R (s.step step).2 (s'.step step).2)
    {s s' : Session} (h : R s s') :
    (s'.step (.hold id before time after)).1 = (s.step (.hold id before time after)).1 ∧
      R (s.step (.hold id before time after)).2 (s'.step (.hold id before time after)).2 := by
  have hrun : ∀ (steps : List Step),
      (∀ step ∈ steps, step ∈ Step.partsOfHold id before time after) → ∀ s s', R s s' →
      (s'.run steps).1 = (s.run steps).1 ∧ R (s.run steps).2 (s'.run steps).2 := by
    intro steps
    induction steps with
    | nil => exact fun _ s s' h => ⟨rfl, h⟩
    | cons step rest ih =>
      intro hm s s' h
      obtain ⟨hanswer, hnext⟩ := hparts step (hm step (.head _)) s s' h
      obtain ⟨hrest, hlast⟩ := ih (fun x hx => hm x (.tail _ hx)) _ _ hnext
      exact ⟨congrArg₂ List.cons hanswer hrest, hlast⟩
  obtain ⟨hlend, -⟩ := hparts (.lend id) (.head _) s s' h
  obtain ⟨hanswers, hlast⟩ := hrun _ (fun _ hx => hx) s s' h
  have houtcome : ∀ {w w' : Option Fault}, outcome w' = outcome w → w' = w := by
    rintro (_ | w) (_ | w') heq <;> cases heq <;> rfl
  obtain ⟨why, hw, heq⟩ | ⟨first, second, s₁, heq, hparts₁⟩ := s.step_hold id before time after <;>
    obtain ⟨why', hw', heq'⟩ | ⟨first', second', s₁', heq', hparts₁'⟩ :=
      s'.step_hold id before time after
  · rw [hw, hw'] at hlend
    rw [heq, heq']
    exact ⟨hlend, h⟩
  · have hdone : (s'.step (.lend id)).1 = .done :=
      (List.cons.inj (congrArg Prod.fst hparts₁')).1
    rw [hdone, hw] at hlend
    cases why <;> cases hlend
  · have hdone : (s.step (.lend id)).1 = .done := (List.cons.inj (congrArg Prod.fst hparts₁)).1
    rw [hdone, hw'] at hlend
    cases why' <;> cases hlend
  · rw [hparts₁, hparts₁'] at hanswers hlast
    simp only [List.cons.injEq] at hanswers
    rw [heq, heq']
    refine ⟨?_, hlast⟩
    rw [houtcome hanswers.2.1, houtcome hanswers.2.2.2.1]

/-- What every step of a kind keeps, a run of such steps keeps. -/
theorem run_keeps {P : Session → Prop} {p : Step → Prop}
    (keep : ∀ (s : Session) (step : Step), p step → P s → P (s.step step).2) :
    ∀ (steps : List Step) {s : Session}, (∀ step ∈ steps, p step) → P s → P (s.run steps).2
  | [], _, _, h => h
  | step :: rest, s, hp, h =>
    run_keeps keep rest (fun step' hm => hp step' (.tail step hm))
      (keep s step (hp step (.head _)) h)

end Session

/-! ## Runs without holds -/

/-- The steps that a step was made of, going by its answer. -/
def Step.parts : Step → Answer → List Step
  | .hold id before time after, .held _ _ => partsOfHold id before time after
  | .hold _ _ _ _, _ => []
  | step, _ => [step]

theorem Step.parts_of_not_isHold {step : Step} (h : step.isHold = false) (answer : Answer) :
    step.parts answer = [step] := by
  cases step with
  | hold => cases h
  | _ => rfl

theorem Step.parts_hold (id : Nat) (before : String) (time : Duration) (after : String)
    (answer : Answer) :
    parts (.hold id before time after) answer = partsOfHold id before time after ∨
      parts (.hold id before time after) answer = [] := by
  cases answer with
  | held => exact .inl rfl
  | _ => exact .inr rfl

theorem Step.forall_partsOfHold {p : Step → Prop} {id : Nat} {before : String} {time : Duration}
    {after : String} (hlend : p (.lend id)) (hexec : ∀ statement, p (.execute id statement))
    (hsleep : p (.sleep time)) (hback : p (.giveBack id)) (hsettle : p .settle) :
    ∀ x ∈ partsOfHold id before time after, p x := by
  intro x hx
  simp only [partsOfHold, List.mem_cons, List.not_mem_nil, or_false] at hx
  obtain rfl | rfl | rfl | rfl | rfl | rfl := hx
  exacts [hlend, hexec before, hsleep, hexec after, hback, hsettle]

namespace Session

/-- A run's steps, each hold replaced by its parts. -/
def unheld : Session → List Step → List Step
  | _, [] => []
  | s, step :: rest => step.parts (s.step step).1 ++ (s.step step).2.unheld rest

theorem run_parts (s : Session) (step : Step) :
    (s.run (step.parts (s.step step).1)).2 = (s.step step).2 := by
  cases step with
  | hold id before time after =>
    rcases s.step_hold id before time after with ⟨why, -, heq⟩ | ⟨_, _, _, heq, hrun⟩
    · rw [heq]
      cases why <;> rfl
    · rw [heq]
      exact congrArg Prod.snd hrun
  | _ => rfl

theorem run_unheld : ∀ (steps : List Step) (s : Session),
    (s.run (s.unheld steps)).2 = (s.run steps).2
  | [], _ => rfl
  | step :: rest, s => by
    unfold unheld
    rw [run_append, run_parts, run_unheld rest]
    rfl

theorem unheld_append (b : List Step) : ∀ (a : List Step) (s : Session),
    s.unheld (a ++ b) = s.unheld a ++ (s.run a).2.unheld b
  | [], _ => rfl
  | step :: rest, s => by
    show step.parts (s.step step).1 ++ (s.step step).2.unheld (rest ++ b) = _
    rw [unheld_append b rest, ← List.append_assoc]
    rfl

/-- What holds of every step of a run and of the parts of its holds. -/
theorem forall_unheld {p : Step → Prop} {s : Session} {steps : List Step}
    (hp : ∀ id before time after, ∀ x ∈ Step.partsOfHold id before time after, p x)
    (h : ∀ step ∈ steps, p step) : ∀ x ∈ s.unheld steps, p x ∧ x.isHold = false := by
  induction steps generalizing s with
  | nil => exact nofun
  | cons step rest ih =>
    intro x hx
    obtain hx | hx := List.mem_append.1 hx
    · cases hh : step.isHold with
      | false =>
        rw [Step.parts_of_not_isHold hh, List.mem_singleton] at hx
        subst hx
        exact ⟨h x (.head _), hh⟩
      | true =>
        cases step with
        | hold id before time after =>
          obtain hparts | hparts := Step.parts_hold id before time after (s.step _).1 <;>
            rw [hparts] at hx
          · exact ⟨hp id before time after x hx,
              Step.forall_partsOfHold (p := fun x => x.isHold = false) rfl (fun _ => rfl) rfl rfl
                rfl x hx⟩
          · cases hx
        | _ => cases hh
    · exact ih (fun step' hm => h step' (.tail _ hm)) x hx

end Session

/-! ## Notes -/

/-- What to note down of a run: of an event that is fired, and of a step that lets no time pass. -/
structure Notes (α : Type) where
  event : Session → Nat × Event → List α
  step : Session → Step → List α

namespace Notes

variable {α : Type} (notes : Notes α)

/-- The notes on the events fired up to an instant. -/
def upTo (limit : Nat) : Nat → Session → List α
  | 0, _ => []
  | k + 1, s =>
    match s.nextEvent? limit with
    | none => []
    | some e => notes.event s e ++ upTo limit k (s.fire e)

/-- The notes while a time passes. -/
def during (s : Session) (time : Duration) : List α :=
  notes.upTo (s.clock + time.nanos) (s.workload (s.clock + time.nanos)) s

/-- The notes on a step that is no hold. -/
def ofStep (s : Session) : Step → List α
  | .sleep time => notes.during s time
  | .settle => notes.during s ⟨0⟩
  | step => notes.step s step

/-- The notes on a run without holds. -/
def along : Session → List Step → List α
  | _, [] => []
  | s, step :: rest => notes.ofStep s step ++ along (s.step step).2 rest

/-- The notes on a run, in order. -/
def ofRun (s : Session) (steps : List Step) : List α := notes.along s (s.unheld steps)

theorem along_append (b : List Step) : ∀ (a : List Step) (s : Session),
    notes.along s (a ++ b) = notes.along s a ++ notes.along (s.run a).2 b
  | [], _ => rfl
  | step :: rest, s => by
    show notes.ofStep s step ++ notes.along (s.step step).2 (rest ++ b) = _
    rw [along_append b rest, ← List.append_assoc]
    rfl

theorem ofRun_append (s : Session) (a b : List Step) :
    notes.ofRun s (a ++ b) = notes.ofRun s a ++ notes.ofRun (s.run a).2 b := by
  unfold ofRun
  rw [Session.unheld_append, along_append, Session.run_unheld]

theorem ofRun_singleton (s : Session) {step : Step} (hh : step.isHold = false) :
    notes.ofRun s [step] = notes.ofStep s step := by
  have hparts : s.unheld [step] = [step] := by
    unfold Session.unheld
    rw [Step.parts_of_not_isHold hh]
    rfl
  rw [ofRun, hparts]
  exact List.append_nil _

section
variable {R : Session → List α → Session → Prop}

/-- What holds between two sessions and the notes on the events fired from one to the other, if each
event makes it hold. -/
theorem upTo_keeps (refl : ∀ s, R s [] s)
    (append : ∀ {s s' s'' l l'}, R s l s' → R s' l' s'' → R s (l ++ l') s'') {limit : Nat}
    (event : ∀ {s e}, s.nextEvent? limit = some e → R s (notes.event s e) (s.fire e)) :
    ∀ (fuel : Nat) (s : Session), R s (notes.upTo limit fuel s) (Session.fireUpTo limit fuel s)
  | 0, s => refl s
  | fuel + 1, s => by
    rcases he : s.nextEvent? limit with _ | e
    · simp only [upTo, Session.fireUpTo, he]
      exact refl s
    · simp only [upTo, Session.fireUpTo, he]
      exact append (event he) (upTo_keeps refl append event fuel (s.fire e))

/-- A relation between two sessions and the notes on what leads from one to the other, which each
event makes hold, a time that passes without one, and each step of a kind. -/
structure Keeps (p : Step → Prop) (R : Session → List α → Session → Prop) : Prop where
  refl (s : Session) : R s [] s
  append {s s' s'' : Session} {l l' : List α} (h : R s l s') (h' : R s' l' s'') : R s (l ++ l') s''
  event {s : Session} {limit : Nat} {e : Nat × Event} (he : s.nextEvent? limit = some e) :
    R s (notes.event s e) (s.fire e)
  pass {s : Session} {now : Nat} (h : s.clock ≤ now) : R s [] { s with clock := now }
  step (s : Session) {step : Step} (hp : p step) (hh : step.isHold = false)
    (sleep : ∀ time, R s (notes.during s time) (s.sleep time)) :
    R s (notes.ofStep s step) (s.step step).2

namespace Keeps

variable {notes} {p : Step → Prop} (h : notes.Keeps p R)
include h

theorem during (s : Session) (time : Duration) : R s (notes.during s time) (s.sleep time) := by
  have hfired : R s (notes.during s time) (Session.fireUpTo (s.clock + time.nanos) _ s) :=
    notes.upTo_keeps h.refl h.append h.event _ s
  have hpassed := h.append hfired (h.pass (Nat.le_max_left _ (s.clock + time.nanos)))
  rwa [List.append_nil] at hpassed

theorem along : ∀ (steps : List Step) (s : Session),
    (∀ step ∈ steps, p step ∧ step.isHold = false) → R s (notes.along s steps) (s.run steps).2
  | [], s, _ => h.refl s
  | step :: rest, s, hk => by
    obtain ⟨hp, hh⟩ := hk step (.head _)
    exact h.append (h.step s hp hh (h.during s))
      (along rest (s.step step).2 fun step' hm => hk step' (.tail _ hm))

/-- A run makes it hold, if its steps and the parts of its holds are of the kind. -/
theorem ofRun {s : Session} {steps : List Step}
    (hk : ∀ step ∈ s.unheld steps, p step ∧ step.isHold = false) :
    R s (notes.ofRun s steps) (s.run steps).2 := by
  rw [← Session.run_unheld]
  exact h.along _ s hk

end Keeps

end

end Notes

end ReplicaRouter
