import ReplicaRouter.Proofs.Construction
import ReplicaRouter.Proofs.Session.Rounds

/-! # The schedule of rounds

Rounds neither burst nor drift, whatever becomes of the clock. With `origin` the instant at which
the node was built and `period` that of its probe, the round after `k` others never comes before
`origin + (k + 1) * period`.

* `Paced`: the next round is set for no earlier. A round puts the next one off by a period from when
  it was set for or from now, so every round keeps this (`Paced.probe`), whenever it happens.
* `OnTime`: the next round is due exactly then. Every round keeps this too if it happens when it is
  due (`OnTime.probe`), and so it does while a time passes (`OnTime.sleep`); only a jump of the
  clock makes it late. Here the schedule starts where a timer acts that is set for `origin`, which
  is `origin` itself if that is a whole millisecond.
-/

namespace ReplicaRouter

/-- The instants at which the rounds after `k` others happen, none before its time. -/
def NoneEarly (origin period k : Nat) (rounds : List Nat) : Prop :=
  ∀ i t, rounds[i]? = some t → origin + (k + i + 1) * period ≤ t

/-- Instants in order between two others. -/
structure InOrder (first : Nat) (instants : List Nat) (last : Nat) : Prop where
  first_le : ∀ t ∈ instants, first ≤ t
  le_last : ∀ t ∈ instants, t ≤ last
  sorted : instants.Pairwise (· ≤ ·)

section
variable {origin period k : Nat} {l l' : List Nat}

theorem NoneEarly.nil : NoneEarly origin period k [] := by
  intro i t h
  cases h

theorem NoneEarly.singleton {t : Nat} (h : origin + (k + 1) * period ≤ t) :
    NoneEarly origin period k [t] := by
  intro i t' ht
  cases i with
  | zero =>
    obtain rfl := Option.some.inj ht
    exact h
  | succ i => cases ht

theorem NoneEarly.append (h : NoneEarly origin period k l)
    (h' : NoneEarly origin period (k + l.length) l') : NoneEarly origin period k (l ++ l') := by
  intro i t ht
  by_cases hi : i < l.length
  · rw [List.getElem?_append_left hi] at ht
    exact h i t ht
  · rw [List.getElem?_append_right (Nat.le_of_not_lt hi)] at ht
    have hlate := h' _ t ht
    rwa [show k + l.length + (i - l.length) = k + i by omega] at hlate

/-- As many rounds as periods have passed, at most. -/
theorem NoneEarly.countP_le (hp : 0 < period) (h : NoneEarly origin period 0 l) (t : Nat) :
    l.countP (· ≤ t) ≤ (t - origin) / period := by
  have hlate : ∀ x ∈ l.drop ((t - origin) / period), ¬ x ≤ t := by
    intro x hx hle
    obtain ⟨i, hi⟩ := List.getElem?_of_mem hx
    rw [List.getElem?_drop] at hi
    have hx' := h _ x hi
    have hpass : t - origin < ((t - origin) / period + 1) * period := by
      rw [Nat.mul_comm]
      exact Nat.lt_mul_div_succ _ hp
    have hmono : ((t - origin) / period + 1) * period ≤
        (0 + ((t - origin) / period + i) + 1) * period := Nat.mul_le_mul_right _ (by omega)
    omega
  have hnone : (l.drop ((t - origin) / period)).countP (· ≤ t) = 0 :=
    List.countP_eq_zero.2 fun x hx => by simpa using hlate x hx
  calc l.countP (· ≤ t)
      = (l.take ((t - origin) / period)).countP (· ≤ t) +
          (l.drop ((t - origin) / period)).countP (· ≤ t) := by
        rw [← List.countP_append, List.take_append_drop]
    _ = (l.take ((t - origin) / period)).countP (· ≤ t) := by
        rw [hnone, Nat.add_zero]
    _ ≤ (t - origin) / period :=
        Nat.le_trans List.countP_le_length (by rw [List.length_take]; exact Nat.min_le_left _ _)

theorem InOrder.nil {first last : Nat} : InOrder first [] last := ⟨by simp, by simp, .nil⟩

theorem InOrder.singleton {first t last : Nat} (h : first ≤ t) (h' : t ≤ last) :
    InOrder first [t] last :=
  ⟨by simpa using h, by simpa using h', List.pairwise_singleton _ _⟩

theorem InOrder.append {first middle last : Nat} (h : InOrder first l middle)
    (h' : InOrder middle l' last) (hfirst : first ≤ middle) (hlast : middle ≤ last) :
    InOrder first (l ++ l') last where
  first_le t ht := by
    obtain ht | ht := List.mem_append.1 ht
    · exact h.first_le t ht
    · exact Nat.le_trans hfirst (h'.first_le t ht)
  le_last t ht := by
    obtain ht | ht := List.mem_append.1 ht
    · exact Nat.le_trans (h.le_last t ht) hlast
    · exact h'.le_last t ht
  sorted := List.pairwise_append.2 ⟨h.sorted, h'.sorted,
    fun t ht t' ht' => Nat.le_trans (h.le_last t ht) (h'.first_le t' ht')⟩

end

def Step.jumps : Step → Bool
  | .jump _ => true
  | _ => false

namespace Session

/-! ## Events fired -/

theorem clock_fire (s : Session) (e : Nat × Event) : (s.fire e).clock = max s.clock e.1 :=
  clock_handle _ e.2

theorem nextProbe?_of_fired {s : Session} {limit : Nat} {e : Nat × Event}
    (h : s.nextEvent? limit = some e) (hp : e.2 = .probe) : s.nextProbe? = some e.1 := by
  obtain ⟨due, _⟩ := e
  obtain rfl := hp
  exact mem_events_probe.1 (nextEvent?_some h).1

theorem node_fire_of_ne {s : Session} {e : Nat × Event} (hp : e.2 ≠ .probe) :
    (s.fire e).node = s.node := by
  obtain ⟨due, _ | id⟩ := e
  · exact absurd rfl hp
  · exact congrArg Premises.node
      (premises_change { s with clock := max s.clock due } id Transaction.front_expire)

/-- The event fired is the earliest. -/
theorem fired_le {s : Session} {limit : Nat} {e e' : Nat × Event}
    (h : s.nextEvent? limit = some e) (he' : e' ∈ s.events) : e.1 ≤ e'.1 := by
  obtain ⟨e₀, hmin, hle⟩ := earliest_le he'
  rw [nextEvent?, hmin, Option.filter_eq_some_iff] at h
  rwa [Option.some.inj h.1] at hle

/-- Of the steps that let no time pass, these have no rounds and leave the schedule alone. -/
theorem schedule_step (s : Session) {step : Step}
    (h : step.isCall = true ∨ step.isAside = true ∧ step.endsNode = false ∨
      ∃ id, step = .happen (.expire id)) :
    Notes.rounds.ofStep s step = [] ∧
      (s.step step).2.node.map Node.unturned = s.node.map Node.unturned ∧
      (s.step step).2.clock = s.clock := by
  obtain hc | ⟨ha, he⟩ | ⟨id, rfl⟩ := h
  · have hp := s.premises_step hc
    refine ⟨?_, congrArg (fun p => p.node.map Node.unturned) hp, congrArg Premises.clock hp⟩
    cases step <;> first | rfl | cases hc
  · refine ⟨?_, s.unturned_step_of_isAside ha he, congrArg Books.clock (s.books_step_of_isAside ha)⟩
    cases step <;> first | rfl | cases ha
  · refine ⟨rfl, ?_, s.clock_happen _⟩
    show (s.happen (.expire id)).node.map Node.unturned = _
    obtain ⟨_, -, -, h⟩ | ⟨-, h⟩ := s.happen_cases (.expire id) <;> rw [h]
    exact congrArg (fun p => p.node.map Node.unturned)
      (s.premises_change id Transaction.front_expire)

/-! ## Order -/

theorem inOrder_keeps : Notes.rounds.Keeps (fun _ => True) fun s l s' =>
    InOrder s.clock l s'.clock ∧ s.clock ≤ s'.clock where
  refl s := ⟨.nil, Nat.le_refl _⟩
  append h h' := ⟨h.1.append h'.1 h.2 h'.2, Nat.le_trans h.2 h'.2⟩
  event {s limit e} _ := by
    rw [Notes.rounds_event, clock_fire]
    refine ⟨?_, Nat.le_max_left _ _⟩
    split
    · exact .singleton (Nat.le_max_left _ _) (Nat.le_refl _)
    · exact .nil
  pass h := ⟨.nil, h⟩
  step s {step} _ _ sleep := by
    have hlater := (s.step_moves step).clock_le
    cases step with
    | sleep time => exact sleep time
    | settle => exact sleep ⟨0⟩
    | happen e =>
      refine ⟨?_, hlater⟩
      cases e with
      | probe =>
        rw [Notes.rounds_happen]
        split
        · exact .singleton (Nat.le_refl _) hlater
        · exact .nil
      | expire => exact .nil
    | _ => exact ⟨.nil, hlater⟩

/-! ## None early -/

/-- The node probes with the period, and the round after `k` others is set for no earlier than its
time. -/
def Paced (origin period k : Nat) (s : Session) : Prop :=
  ∀ n, s.node = some n → n.period.nanos = period ∧ origin + (k + 1) * period ≤ n.nextProbe

section
variable {origin period k : Nat} {s : Session}

theorem Paced.congr {s' : Session} (h : Paced origin period k s)
    (hn : s'.node.map Node.unturned = s.node.map Node.unturned) : Paced origin period k s' := by
  intro n' hn'
  rw [hn', Option.map_some, eq_comm, Option.map_eq_some_iff] at hn
  obtain ⟨n, hs, heq⟩ := hn
  have hperiod : n.unturned.period = n'.unturned.period := congrArg Node.period heq
  have hnext : n.unturned.nextProbe = n'.unturned.nextProbe := congrArg Node.nextProbe heq
  show n'.unturned.period.nanos = period ∧ origin + (k + 1) * period ≤ n'.unturned.nextProbe
  rw [← hperiod, ← hnext]
  exact h n hs

/-- A round that is due does not happen before its time, and nor will the next. -/
theorem Paced.probe (h : Paced origin period k s) {due : Nat} (hd : s.nextProbe? = some due)
    (hle : due ≤ s.clock) :
    origin + (k + 1) * period ≤ s.clock ∧ Paced origin period (k + 1) (s.handle .probe) := by
  obtain ⟨n, hn, hdue⟩ := Option.bind_eq_some_iff.1 hd
  obtain ⟨-, rfl⟩ := Node.due?_eq_some.1 hdue
  obtain ⟨hperiod, hpaced⟩ := h n hn
  refine ⟨Nat.le_trans hpaced (Nat.le_trans (Timer.le_wake _) hle), ?_⟩
  intro n' hn'
  simp only [handle, hn, Option.some.injEq] at hn'
  subst hn'
  refine ⟨hperiod, ?_⟩
  rw [Nat.add_mul (k + 1), Nat.one_mul]
  simp only [Node.probed, hperiod]
  split <;> omega

/-- The rounds of what builds no node come no earlier than their times, and nor will the next. -/
theorem Paced.keeps : Notes.rounds.Keeps (·.builds = false) fun s l s' =>
    ∀ k, Paced origin period k s →
      NoneEarly origin period k l ∧ Paced origin period (k + l.length) s' where
  refl _ _ h := ⟨.nil, h⟩
  append h h' k hk := by
    obtain ⟨hlate, hnext⟩ := h k hk
    obtain ⟨hrest, hlast⟩ := h' _ hnext
    rw [List.length_append, ← Nat.add_assoc]
    exact ⟨hlate.append hrest, hlast⟩
  event {s limit e} he k h := by
    rw [Notes.rounds_event]
    by_cases hp : e.2 = .probe
    · obtain ⟨hlate, hnext⟩ := Paced.probe (s := { s with clock := max s.clock e.1 }) h
        (nextProbe?_of_fired he hp) (Nat.le_max_right _ _)
      rw [← hp] at hnext
      rw [if_pos hp]
      exact ⟨.singleton hlate, hnext⟩
    · rw [if_neg hp]
      exact ⟨.nil, h.congr (by rw [node_fire_of_ne hp])⟩
  pass _ _ h := ⟨.nil, h⟩
  step s {step} hb hh sleep k h := by
    have still : (step.isCall = true ∨ step.isAside = true ∧ step.endsNode = false ∨
        ∃ id, step = .happen (.expire id)) →
        NoneEarly origin period k (Notes.rounds.ofStep s step) ∧
          Paced origin period (k + (Notes.rounds.ofStep s step).length) (s.step step).2 := by
      intro hstill
      obtain ⟨hr, hn, -⟩ := s.schedule_step hstill
      rw [hr]
      exact ⟨.nil, h.congr hn⟩
    cases step with
    | sleep time => exact sleep time k h
    | settle => exact sleep ⟨0⟩ k h
    | jump => exact ⟨.nil, h⟩
    | happen e =>
      cases e with
      | probe =>
        show _ ∧ Paced _ _ _ (s.happen .probe)
        rw [happen_probe, Notes.rounds_happen]
        split
        · rename_i hdue
          obtain ⟨due, hd, hle⟩ := (Option.any_eq_true _ _).1 hdue
          obtain ⟨hlate, hnext⟩ := h.probe hd (of_decide_eq_true hle)
          exact ⟨.singleton hlate, hnext⟩
        · exact ⟨.nil, h⟩
      | expire id => exact still (.inr (.inr ⟨id, rfl⟩))
    | hold => cases hh
    | build => cases hb
    | drop => exact ⟨.nil, fun n hn => by cases hn⟩
    | close =>
      refine ⟨.nil, ?_⟩
      simp only [Session.step, onNode]
      split
      · exact h
      · rename_i n hn
        intro n' hn'
        obtain rfl := Option.some.inj hn'
        exact h n hn
    | beginOn | beginThrough | execute | lend | giveBack | commit | rollBack | disown =>
      exact still (.inl rfl)
    | _ => exact still (.inr (.inl ⟨rfl, rfl⟩))

end

/-! ## On time -/

/-- The node's next round is due at its time, which is not past. -/
structure OnTime (origin period k : Nat) (s : Session) : Prop where
  node : ∃ n, s.node = some n ∧ n.closed = false ∧ n.period.nanos = period ∧
    Timer.wake n.nextProbe = origin + (k + 1) * period
  started : k * period ≤ s.clock - origin
  waits : s.clock ≤ origin + (k + 1) * period

/-- The times of some rounds after `k` others. -/
def punctual (origin period k count : Nat) : List Nat :=
  (List.range' k count).map fun j => origin + (j + 1) * period

theorem punctual_append (origin period k a b : Nat) :
    punctual origin period k a ++ punctual origin period (k + a) b =
      punctual origin period k (a + b) := by
  rw [punctual, punctual, punctual, ← List.map_append, List.range'_append_1]

section
variable {origin period k : Nat} {s : Session}

theorem OnTime.congr {s' : Session} (h : OnTime origin period k s)
    (hn : s'.node.map Node.unturned = s.node.map Node.unturned) (hnow : s'.clock = s.clock) :
    OnTime origin period k s' := by
  obtain ⟨n, hs, hclosed, hperiod, hnext⟩ := h.node
  rw [hs, Option.map_some, Option.map_eq_some_iff] at hn
  obtain ⟨n', hs', heq⟩ := hn
  refine ⟨⟨n', hs', ?_, ?_, ?_⟩, by rw [hnow]; exact h.started, by rw [hnow]; exact h.waits⟩
  · exact (congrArg Node.closed heq).trans hclosed
  · exact (congrArg (fun n : Node => n.period.nanos) heq).trans hperiod
  · exact (congrArg (fun n : Node => Timer.wake n.nextProbe) heq).trans hnext

theorem OnTime.nextProbe? (h : OnTime origin period k s) :
    s.nextProbe? = some (origin + (k + 1) * period) := by
  obtain ⟨n, hn, hclosed, -, hnext⟩ := h.node
  rw [Session.nextProbe?, hn]
  exact Node.due?_eq_some.2 ⟨hclosed, hnext⟩

theorem OnTime.mem_events (h : OnTime origin period k s) :
    (origin + (k + 1) * period, .probe) ∈ s.events :=
  mem_events_probe.2 h.nextProbe?

/-- A round that happens when it is due puts the next one off by a period. -/
theorem OnTime.probe (h : OnTime origin period k s) (hnow : s.clock = origin + (k + 1) * period) :
    OnTime origin period (k + 1) (s.handle .probe) := by
  obtain ⟨n, hn, hclosed, hperiod, hnext⟩ := h.node
  have hlater : origin + (k + 1 + 1) * period = origin + (k + 1) * period + period := by
    rw [Nat.add_mul (k + 1), Nat.one_mul, Nat.add_assoc]
  have hn' : (s.handle .probe).node = some (n.probed s.clock) := by simp only [handle, hn]
  refine ⟨⟨_, hn', hclosed, hperiod, ?_⟩, ?_, ?_⟩
  · rw [hnow, ← hnext, n.nextProbe_probed_wake, n.wake_add_period, hnext, hperiod, hlater]
  · rw [clock_handle]
    omega
  · rw [clock_handle]
    omega

theorem OnTime.fire (h : OnTime origin period k s) {limit : Nat} {e : Nat × Event}
    (he : s.nextEvent? limit = some e) :
    ∃ count, Notes.rounds.event s e = punctual origin period k count ∧
      OnTime origin period (k + count) (s.fire e) := by
  rw [Notes.rounds_event]
  by_cases hp : e.2 = .probe
  · have hdue : e.1 = origin + (k + 1) * period :=
      Option.some.inj ((nextProbe?_of_fired he hp).symm.trans h.nextProbe?)
    have hnow : max s.clock e.1 = origin + (k + 1) * period := by
      have hwaits := h.waits
      omega
    have hlater : OnTime origin period k { s with clock := max s.clock e.1 } :=
      ⟨h.node, Nat.le_trans h.started (Nat.sub_le_sub_right (Nat.le_max_left _ _) _),
        Nat.le_of_eq hnow⟩
    have hnext := hlater.probe hnow
    rw [← hp] at hnext
    refine ⟨1, ?_, hnext⟩
    rw [if_pos hp, hnow]
    rfl
  · have hle : e.1 ≤ origin + (k + 1) * period := fired_le he h.mem_events
    refine ⟨0, if_neg hp, ?_, ?_, ?_⟩
    · rw [node_fire_of_ne hp]
      exact h.node
    · rw [clock_fire]
      exact Nat.le_trans h.started (Nat.sub_le_sub_right (Nat.le_max_left _ _) _)
    · rw [clock_fire]
      exact Nat.max_le.2 ⟨h.waits, hle⟩

theorem OnTime.fireUpTo (h : OnTime origin period k s) (limit fuel : Nat) :
    ∃ count, Notes.rounds.upTo limit fuel s = punctual origin period k count ∧
      OnTime origin period (k + count) (fireUpTo limit fuel s) := by
  refine Notes.rounds.upTo_keeps (R := fun s l s' => ∀ k, OnTime origin period k s →
    ∃ count, l = punctual origin period k count ∧ OnTime origin period (k + count) s')
    ?_ ?_ ?_ fuel s k h
  · exact fun s k h => ⟨0, rfl, h⟩
  · rintro s s' s'' _ _ h h' k hk
    obtain ⟨a, rfl, hnext⟩ := h k hk
    obtain ⟨b, rfl, hlast⟩ := h' _ hnext
    exact ⟨a + b, punctual_append origin period k a b, by rw [← Nat.add_assoc]; exact hlast⟩
  · exact fun he k h => h.fire he

/-- Letting a time pass leaves no round waiting. -/
theorem OnTime.sleep (h : OnTime origin period k s) (time : Duration) :
    ∃ count, Notes.rounds.during s time = punctual origin period k count ∧
      OnTime origin period (k + count) (s.sleep time) ∧
      (s.sleep time).clock < origin + (k + count + 1) * period := by
  obtain ⟨count, hrounds, hlast⟩ :=
    h.fireUpTo (s.clock + time.nanos) (s.workload (s.clock + time.nanos))
  have hlt : s.clock + time.nanos < origin + (k + count + 1) * period :=
    lt_of_nextEvent?_none (s.nextEvent?_advanceTo (s.clock + time.nanos)) hlast.mem_events
  rw [← clock_sleep] at hlt
  refine ⟨count, hrounds, ⟨hlast.node, ?_, Nat.le_of_lt hlt⟩, hlt⟩
  exact Nat.le_trans hlast.started (Nat.sub_le_sub_right (Nat.le_max_left _ _) _)

/-- A step that neither moves the clock by a jump nor ends the node keeps the rounds on time. -/
theorem OnTime.step (h : OnTime origin period k s) (hlt : s.clock < origin + (k + 1) * period)
    {step : Step} (hj : step.jumps = false) (he : step.endsNode = false)
    (hh : step.isHold = false) :
    ∃ count, Notes.rounds.ofStep s step = punctual origin period k count ∧
      OnTime origin period (k + count) (s.step step).2 ∧
      (s.step step).2.clock < origin + (k + count + 1) * period := by
  have still : (step.isCall = true ∨ step.isAside = true ∧ step.endsNode = false ∨
      ∃ id, step = .happen (.expire id)) →
      ∃ count, Notes.rounds.ofStep s step = punctual origin period k count ∧
        OnTime origin period (k + count) (s.step step).2 ∧
        (s.step step).2.clock < origin + (k + count + 1) * period := by
    intro hstill
    obtain ⟨hr, hn, hnow⟩ := s.schedule_step hstill
    exact ⟨0, hr, h.congr hn hnow, by rw [hnow]; exact hlt⟩
  cases step with
  | sleep time => exact h.sleep time
  | settle => exact h.sleep ⟨0⟩
  | jump => cases hj
  | happen e =>
    cases e with
    | probe =>
      -- the next round is not due yet
      have hnot : s.nextProbe?.any (· ≤ s.clock) = false := by
        rw [h.nextProbe?]
        simpa using hlt
      have hstep : (s.step (.happen .probe)).2 = s := by
        show s.happen .probe = s
        rw [happen_probe, hnot, if_neg Bool.false_ne_true]
      have hrounds : Notes.rounds.ofStep s (.happen .probe) = [] := by
        rw [Notes.rounds_happen, hnot, if_neg Bool.false_ne_true]
      rw [hstep]
      exact ⟨0, hrounds, h, hlt⟩
    | expire id => exact still (.inr (.inr ⟨id, rfl⟩))
  | hold => cases hh
  | build | drop | close => cases he
  | beginOn | beginThrough | execute | lend | giveBack | commit | rollBack | disown =>
    exact still (.inl rfl)
  | _ => exact still (.inr (.inl ⟨rfl, rfl⟩))

theorem OnTime.runAlong : ∀ (steps : List Step) {k : Nat} {s : Session},
    OnTime origin period k s → s.clock < origin + (k + 1) * period →
      (∀ step ∈ steps, (step.jumps = false ∧ step.endsNode = false) ∧ step.isHold = false) →
      ∃ count, Notes.rounds.along s steps = punctual origin period k count ∧
        OnTime origin period (k + count) (s.run steps).2 ∧
        (s.run steps).2.clock < origin + (k + count + 1) * period
  | [], _, _, h, hlt, _ => ⟨0, rfl, h, hlt⟩
  | step :: rest, k, s, h, hlt, hk => by
    obtain ⟨⟨hj, he⟩, hh⟩ := hk step (.head _)
    obtain ⟨a, hrounds, hnext, hnextLt⟩ := h.step hlt hj he hh
    obtain ⟨b, hrest, hlast, hlastLt⟩ := hnext.runAlong rest hnextLt
      fun step' hm => hk step' (.tail _ hm)
    refine ⟨a + b, ?_, ?_, ?_⟩
    · rw [← punctual_append, ← hrounds, ← hrest]
      rfl
    · rw [← Nat.add_assoc]
      exact hlast
    · rw [← Nat.add_assoc]
      exact hlastLt

end

/-! ## Runs of a built node -/

/-- **Rounds neither burst nor drift.** From when a node was built until the next one is, whatever
else happens and however far the clock jumps, the round after `k` others comes no earlier than
`k + 1` periods after the node was built, so at no time have there been more of them than periods.
As long as the clock does not jump and the node stands, there are as many, each at its time. These
times are counted from where a timer acts that is set for when the node was built, which is then if
it was built at a whole millisecond. Closing or dropping the node ends the rounds for good. Nothing
but these rounds, checks and direct pings pings a server. -/
theorem rounds_run {settings : Settings} {g g' : Generator} {c c' : Cluster} {n : Node}
    {s : Session} (hb : Node.build settings s.clock g c = (.ok n, g', c')) (hs : s.node = some n)
    {steps : List Step} (hk : ∀ step ∈ steps, step.builds = false) :
    let period := settings.checkPeriod.nanos
    let start := Timer.wake s.clock
    let rounds := s.rounds steps
    let last := (s.run steps).2.clock
    0 < period ∧ s.clock ≤ start ∧ start < s.clock + Duration.perMilli ∧
      (∀ n, s.clock = Duration.perMilli * n → start = s.clock) ∧
      InOrder s.clock rounds last ∧
      (∀ k t, rounds[k]? = some t → s.clock + (k + 1) * period ≤ t) ∧
      (∀ t, rounds.countP (· ≤ t) ≤ (t - s.clock) / period) ∧
      ((∀ step ∈ steps, step.jumps = false ∧ step.endsNode = false) →
        rounds = (List.range ((last - start) / period)).map fun k => start + (k + 1) * period) ∧
      (∀ before stop after, steps = before ++ stop :: after → stop = .close ∨ stop = .drop →
        rounds = s.rounds before) ∧
      (.drop ∉ steps → ∀ addr, ((s.run steps).2.cluster.get addr).pings =
        (s.cluster.get addr).pings + (steps.flatMap (Step.pinged s.probed)).count addr +
          rounds.length * s.probed.count addr) := by
  intro period start rounds last
  obtain ⟨hclosed, hperiod, hnext⟩ := Node.schedule_of_build hb
  replace hperiod : n.period.nanos = period := congrArg Duration.nanos hperiod
  replace hnext : n.nextProbe = s.clock + n.period.nanos := by rw [hnext, hperiod]
  have hpos : 0 < period := hperiod ▸ n.period_nanos_pos
  have hstart := Timer.le_wake s.clock
  have hsimple : ∀ step ∈ s.unheld steps, step.builds = false ∧ step.isHold = false :=
    forall_unheld (fun _ _ _ _ => Step.forall_partsOfHold rfl (fun _ => rfl) rfl rfl rfl) hk
  have hlate : NoneEarly s.clock period 0 rounds := by
    refine (Paced.keeps.ofRun hsimple 0 ?_).1
    intro n' hn'
    obtain rfl := Option.some.inj (hs.symm.trans hn')
    exact ⟨hperiod, by rw [hnext, hperiod, Nat.zero_add, Nat.one_mul]⟩
  have horder : InOrder s.clock rounds last :=
    (inOrder_keeps.ofRun fun step hm => ⟨trivial, (hsimple step hm).2⟩).1
  refine ⟨hpos, hstart, Timer.wake_lt s.clock, fun m hm => Timer.wake_eq hm, horder, ?_,
    hlate.countP_le hpos, ?_, ?_, ?_⟩
  · intro k t ht
    have := hlate k t ht
    rwa [Nat.zero_add] at this
  · intro hstands
    have hparts : ∀ step ∈ s.unheld steps,
        (step.jumps = false ∧ step.endsNode = false) ∧ step.isHold = false :=
      forall_unheld (fun _ _ _ _ => Step.forall_partsOfHold ⟨rfl, rfl⟩ (fun _ => ⟨rfl, rfl⟩)
        ⟨rfl, rfl⟩ ⟨rfl, rfl⟩ ⟨rfl, rfl⟩) hstands
    have hfirst : Timer.wake n.nextProbe = start + (0 + 1) * period := by
      rw [hnext, n.wake_add_period, hperiod, Nat.zero_add, Nat.one_mul]
    have hontime₀ : OnTime start period 0 s :=
      ⟨⟨n, hs, hclosed, hperiod, hfirst⟩, by omega, by omega⟩
    obtain ⟨count, hrounds, hontime, hlt⟩ := hontime₀.runAlong _ (by omega) hparts
    rw [run_unheld, Nat.zero_add] at hontime hlt
    have hsome : 0 < (count + 1) * period := Nat.mul_pos count.succ_pos hpos
    have hcount : (last - start) / period = count :=
      Nat.div_eq_of_lt_le hontime.started (by omega)
    rw [hcount, List.range_eq_range']
    exact hrounds
  · rintro before stop after rfl hstop
    have hrest : ((s.run before).2.step stop).2.Resting := by
      obtain rfl | rfl := hstop
      · exact resting_close _
      · rfl
    have hb' : ∀ step ∈ after, step.builds = false := fun step hm =>
      hk step (List.mem_append_right _ (.tail _ hm))
    have hnone : ((s.run before).2.run [stop]).2.rounds after = [] := rounds_of_resting hrest hb'
    have hstop' : (s.run before).2.rounds [stop] = [] := by
      obtain rfl | rfl := hstop <;> rfl
    have hcut : s.rounds (before ++ stop :: after) = s.rounds before ++
        ((s.run before).2.rounds [stop] ++ ((s.run before).2.run [stop]).2.rounds after) := by
      rw [List.append_cons, List.append_assoc, Session.rounds, Notes.ofRun_append,
        Notes.ofRun_append]
      rfl
    show s.rounds (before ++ stop :: after) = s.rounds before
    rw [hcut, hnone, hstop', List.append_nil, List.append_nil]
  · exact fun hd addr => pings_run hk (fun h => absurd h hd) addr

/-- A period of 10 ms, with a check in between two rounds and two of their timers. -/
theorem rounds_run_punctual :
    let settings : Settings := { master := { addr := "m:1" }, checkInterval := 10 }
    let steps := [Step.sleep ⟨25300000⟩, .check, .sleep ⟨9700000⟩]
    ∃ n g c, Node.build settings 0 ⟨3⟩ {} = (.ok n, g, c) ∧
      let s : Session := { generator := g, cluster := c, node := some n }
      s.rounds steps = [10000000, 20000000, 30000000] ∧
        ((s.run steps).2.cluster.get "m:1").pings = 5 := by
  intro settings steps
  have hbuilt : (Node.build settings 0 ⟨3⟩ {}).1.toOption.map (·.targets.map (·.1)) =
      some ["m:1"] := by decide +kernel
  have hpings : ((Node.build settings 0 ⟨3⟩ {}).2.2.get "m:1").pings = 1 := by decide +kernel
  rcases hb : Node.build settings 0 ⟨3⟩ {} with ⟨err | n, g, c⟩ <;> rw [hb] at hbuilt hpings
  · cases hbuilt
  have hprobed : n.targets.map (·.1) = ["m:1"] := Option.some.inj hbuilt
  refine ⟨n, g, c, rfl, ?_⟩
  intro s
  have hclock : s.clock = 0 := rfl
  have hk : ∀ step ∈ steps, step.builds = false := by decide
  obtain ⟨-, -, -, -, -, -, -, hexact, -, hping⟩ := rounds_run (s := s) hb rfl hk
  have hcheck : ((s.sleep ⟨25300000⟩).step .check).2.clock = (s.sleep ⟨25300000⟩).clock :=
    congrArg Books.clock ((s.sleep ⟨25300000⟩).books_step_of_isAside rfl)
  have hlast : (s.run steps).2.clock = 35000000 := by
    show (((s.sleep ⟨25300000⟩).step .check).2.sleep ⟨9700000⟩).clock = 35000000
    rw [clock_sleep, hcheck, clock_sleep, hclock]
    decide
  have hrounds : s.rounds steps = [10000000, 20000000, 30000000] := by
    have hperiod : settings.checkPeriod.nanos = 10000000 := by decide
    have hstart : Timer.wake 0 = 0 := by decide
    rw [hexact (by decide), hlast, hperiod, hclock, hstart]
    decide
  refine ⟨hrounds, ?_⟩
  have hprobed' : s.probed = ["m:1"] := hprobed
  rw [hping (by decide) "m:1", hrounds, hprobed', hpings]
  decide

end Session

end ReplicaRouter
