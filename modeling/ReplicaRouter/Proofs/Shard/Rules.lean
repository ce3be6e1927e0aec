import ReplicaRouter.Proofs.Shard.Partitions

/-!
# Plans of rules

What a single rule does is decided by its own fields: one of an unknown strategy nothing, a faulty
one (`ShardRule.Faulty`) fails, and any other gives the strategy it prescribes
(`ShardRule.Prescribes`). Of a list, the first faulty rule is the failure, whatever stands before it
(`Plan.foldlM_error_iff`), and otherwise the first rule for a table decides it (`Plan.find?_first`).
So rules of unknown strategies can be left out (`Plan.ofRules_filter`), and the plan of two lists is
the plan of the first, filled up from that of the second (`Plan.ofRules_append`).
-/

namespace ReplicaRouter

/-! ## Single rules -/

namespace StrategyKind

/-- The name of a kind. -/
def tag : StrategyKind → String
  | .modulo => "mod"
  | .ranges => "range"
  | .calendar .day => "date_day"
  | .calendar .month => "date_month"
  | .calendar .year => "date_year"

theorem ofTag?_eq_some_iff {name : String} {k : StrategyKind} :
    ofTag? name = some k ↔ name = k.tag := by
  constructor
  · intro h
    unfold ofTag? at h
    split at h
    all_goals cases h
    all_goals rfl
  · intro h
    subst h
    rcases k with _ | _ | _ | _ | _
    all_goals rfl

end StrategyKind

namespace ShardRule

/-- The rule has a strategy's name. -/
def Known (r : ShardRule) : Prop := ∃ k : StrategyKind, r.tag = k.tag

/-- The rule is for this table and has a strategy's name. -/
def Routes (t : TableName) (r : ShardRule) : Prop := r.db = t.db ∧ r.table = t.table ∧ r.Known

/-- The modulus is not positive, or the ranges are none, empty or past the signed words. -/
inductive HasFault (r : ShardRule) : RuleFault → Prop
  | modulus (ht : r.tag = "mod") (h : r.modulus.toInt ≤ 0) : HasFault r .modulus
  | ranges (ht : r.tag = "range")
      (h : r.ranges.toInt ≤ 0 ∨ r.rangeWidth.toInt ≤ 0 ∨
        2 ^ 63 ≤ r.ranges.toInt * r.rangeWidth.toInt) : HasFault r .ranges

def Faulty (r : ShardRule) : Prop := ∃ fault, r.HasFault fault

/-- The strategy that a rule is for. -/
inductive Prescribes (r : ShardRule) : Strategy → Prop
  | modulo {m : UInt64} (ht : r.tag = "mod") (hm : (m.toNat : Int) = r.modulus.toInt) :
      Prescribes r (.modulo ⟨m⟩)
  | ranges (ht : r.tag = "range") :
      Prescribes r (.ranges ⟨Span.split r.ranges r.rangeWidth⟩)
  | day (ht : r.tag = "date_day") : Prescribes r (.calendar .day)
  | month (ht : r.tag = "date_month") : Prescribes r (.calendar .month)
  | year (ht : r.tag = "date_year") : Prescribes r (.calendar .year)

theorem known_iff {r : ShardRule} : r.Known ↔ (StrategyKind.ofTag? r.tag).isSome = true := by
  rw [Option.isSome_iff_exists]
  exact exists_congr fun k => StrategyKind.ofTag?_eq_some_iff.symm

instance (r : ShardRule) : Decidable r.Known := decidable_of_iff _ known_iff.symm

theorem governs_iff {t : TableName} {r : ShardRule} : r.governs t = true ↔ r.Routes t := by
  rw [governs, decide_eq_true_iff, Routes, known_iff]

end ShardRule

namespace Strategy

theorem ofRule_error_iff {r : ShardRule} {e : RouterError} : ofRule r = .error e ↔
    ∃ fault, r.HasFault fault ∧ e = .invalidRule r.db r.table fault := by
  constructor
  · intro h
    unfold ofRule at h
    rcases hk : StrategyKind.ofTag? r.tag with _ | _ | _ | part
    · simp only [hk] at h
      cases h
    · have ht := StrategyKind.ofTag?_eq_some_iff.1 hk
      simp only [hk] at h
      split at h
      · rename_i hle
        exact ⟨_, .modulus ht (Int64.le_iff_toInt_le.1 hle), (Except.error.inj h).symm⟩
      · cases h
    · have ht := StrategyKind.ofTag?_eq_some_iff.1 hk
      simp only [hk] at h
      split at h
      · rename_i hempty
        refine ⟨_, .ranges ht ?_, (Except.error.inj h).symm⟩
        have hnone := mt Span.split_ne_nil_iff.2 (not_not.2 (List.isEmpty_iff.1 hempty))
        omega
      · cases h
    · simp only [hk] at h
      cases h
  · intro h
    obtain ⟨fault, hfault, rfl⟩ := h
    cases hfault with
    | modulus ht hle =>
      have hk : StrategyKind.ofTag? r.tag = some .modulo := StrategyKind.ofTag?_eq_some_iff.2 ht
      simp only [ofRule, hk]
      rw [if_pos (Int64.le_iff_toInt_le.2 hle)]
    | ranges ht hnone =>
      have hk : StrategyKind.ofTag? r.tag = some .ranges := StrategyKind.ofTag?_eq_some_iff.2 ht
      have hempty : Span.split r.ranges r.rangeWidth = [] := by
        apply Classical.not_not.1
        intro h
        have := Span.split_ne_nil_iff.1 h
        omega
      simp only [ofRule, hk, hempty]
      rfl

theorem ofRule_of_not_known {r : ShardRule} (h : ¬ r.Known) : ofRule r = .ok none := by
  rw [ShardRule.known_iff, Option.not_isSome_iff_eq_none] at h
  rw [ofRule, h]

theorem prescribes_of_ofRule {r : ShardRule} {s : Strategy} (h : ofRule r = .ok (some s)) :
    r.Prescribes s := by
  have hs := ofRule_ok h
  have htag {k : StrategyKind} : StrategyKind.ofTag? r.tag = some k → r.tag = k.tag :=
    StrategyKind.ofTag?_eq_some_iff.1
  rcases hk : StrategyKind.ofTag? r.tag with _ | _ | _ | _ | _ | _
  all_goals rw [hk] at hs
  · cases hs
  · obtain ⟨hpos, rfl⟩ := hs.imp_right Option.some.inj
    exact .modulo (htag hk) (toNat_toUInt64 (Int.le_of_lt hpos))
  · obtain ⟨-, rfl⟩ := hs.imp_right Option.some.inj
    exact .ranges (htag hk)
  · obtain rfl := Option.some.inj hs
    exact .year (htag hk)
  · obtain rfl := Option.some.inj hs
    exact .month (htag hk)
  · obtain rfl := Option.some.inj hs
    exact .day (htag hk)

end Strategy

/-! ## The first of a list with a property -/

/-- An element of the list has the property, and none before it. -/
def IsFirst {α : Type} (P : α → Prop) (xs : List α) (x : α) : Prop :=
  ∃ before after, xs = before ++ x :: after ∧ P x ∧ ∀ y ∈ before, ¬ P y

section
variable {α : Type} {P : α → Prop}

theorem IsFirst.holds {xs : List α} {x : α} (h : IsFirst P xs x) : P x := by
  obtain ⟨_, _, -, hx, -⟩ := h
  exact hx

theorem not_isFirst_nil {x : α} : ¬ IsFirst P [] x := by
  intro h
  obtain ⟨before, after, hnil, -⟩ := h
  exact List.append_ne_nil_of_right_ne_nil before (List.cons_ne_nil x after) hnil.symm

theorem isFirst_cons_of_pos {x y : α} {rest : List α} (hy : P y) :
    IsFirst P (y :: rest) x ↔ x = y := by
  constructor
  · intro h
    obtain ⟨before, after, hlist, -, hbefore⟩ := h
    cases before with
    | nil => exact (List.cons.inj hlist).1.symm
    | cons z before =>
      obtain rfl := (List.cons.inj hlist).1
      exact absurd hy (hbefore y (.head before))
  · intro h
    subst h
    exact ⟨[], rest, rfl, hy, fun z hz => absurd hz List.not_mem_nil⟩

theorem isFirst_cons_of_neg {x y : α} {rest : List α} (hy : ¬ P y) :
    IsFirst P (y :: rest) x ↔ IsFirst P rest x := by
  constructor
  · intro h
    obtain ⟨before, after, hlist, hx, hbefore⟩ := h
    cases before with
    | nil =>
      obtain rfl := (List.cons.inj hlist).1
      exact absurd hx hy
    | cons z before =>
      obtain ⟨rfl, hrest⟩ := List.cons.inj hlist
      exact ⟨before, after, hrest, hx, fun z hz => hbefore z (.tail y hz)⟩
  · intro h
    obtain ⟨before, after, rfl, hx, hbefore⟩ := h
    exact ⟨y :: before, after, rfl, hx, List.forall_mem_cons.2 ⟨hy, hbefore⟩⟩

theorem exists_isFirst_iff {xs : List α} : (∃ x, IsFirst P xs x) ↔ ∃ x ∈ xs, P x := by
  induction xs with
  | nil => simp [not_isFirst_nil]
  | cons y rest ih =>
    rw [List.exists_mem_cons_iff]
    by_cases hy : P y
    · exact ⟨fun _ => .inl hy, fun _ => ⟨y, (isFirst_cons_of_pos hy).2 rfl⟩⟩
    · simp only [isFirst_cons_of_neg hy, ih, hy, false_or]

end

/-- The rule that governs a table is the first for it with a strategy's name. -/
theorem governing?_eq_some_iff {rules : List ShardRule} {t : TableName} {r : ShardRule} :
    governing? rules t = some r ↔ IsFirst (·.Routes t) rules r := by
  simp only [governing?, List.find?_eq_some_iff_append, IsFirst, ShardRule.governs_iff,
    Bool.not_eq_true', ← Bool.not_eq_true]
  constructor
  · intro h
    obtain ⟨hr, before, after, hlist, hbefore⟩ := h
    exact ⟨before, after, hlist, hr, hbefore⟩
  · intro h
    obtain ⟨before, after, hlist, hr, hbefore⟩ := h
    exact ⟨hr, before, after, hlist, hbefore⟩

/-! ## Lists of rules -/

namespace Plan

/-- Whether rules fail, and how, does not depend on the plan they are added to. -/
theorem foldlM_error_iff {rules : List ShardRule} {p : Plan} {e : RouterError} :
    rules.foldlM addRule p = .error e ↔
      ∃ r fault, IsFirst ShardRule.Faulty rules r ∧ r.HasFault fault ∧
        e = .invalidRule r.db r.table fault := by
  induction rules generalizing p with
  | nil =>
    constructor
    · intro h
      cases h
    · intro h
      obtain ⟨r, fault, hr, -⟩ := h
      exact absurd hr not_isFirst_nil
  | cons q rest ih =>
    rw [List.foldlM_cons, addRule]
    cases hq : Strategy.ofRule q with
    | error e' =>
      have hfault := Strategy.ofRule_error_iff.1 hq
      have hfaulty : q.Faulty := hfault.imp fun _ h => h.1
      simp only [isFirst_cons_of_pos hfaulty]
      show Except.error e' = Except.error e ↔ _
      rw [Except.error.injEq]
      constructor
      · intro he
        obtain ⟨fault, hf, heq⟩ := hfault
        exact ⟨q, fault, rfl, hf, he.symm.trans heq⟩
      · intro h
        obtain ⟨r, fault, rfl, hf, he⟩ := h
        have hrule : Strategy.ofRule r = .error e := Strategy.ofRule_error_iff.2 ⟨fault, hf, he⟩
        exact Except.error.inj (hq.symm.trans hrule)
    | ok s =>
      have hsound : ¬ q.Faulty := by
        intro h
        obtain ⟨fault, hf⟩ := h
        rw [Strategy.ofRule_error_iff.2 ⟨fault, hf, rfl⟩] at hq
        cases hq
      simp only [isFirst_cons_of_neg hsound]
      cases s with
      | none => exact ih
      | some s => exact ih

theorem foldlM_ok_of {rules : List ShardRule} (h : ∀ r ∈ rules, ¬ r.Faulty) (p : Plan) :
    ∃ plan, rules.foldlM addRule p = .ok plan := by
  cases hp : rules.foldlM addRule p with
  | ok plan => exact ⟨plan, rfl⟩
  | error e =>
    obtain ⟨r, -, hr, -⟩ := foldlM_error_iff.1 hp
    obtain ⟨q, hq, hfaulty⟩ := exists_isFirst_iff.1 ⟨r, hr⟩
    exact absurd hfaulty (h q hq)

theorem not_faulty_of_ofRules {rules : List ShardRule} {plan : Plan}
    (h : ofRules rules = .ok plan) : ∀ r ∈ rules, ¬ r.Faulty := by
  intro r hr hfaulty
  obtain ⟨q, hq⟩ := exists_isFirst_iff.2 ⟨r, hr, hfaulty⟩
  obtain ⟨fault, hf⟩ := hq.holds
  have herror : ofRules rules = .error _ := foldlM_error_iff.2 ⟨q, fault, hq, hf, rfl⟩
  rw [herror] at h
  cases h

/-- A plan keeps one entry for each table. -/
theorem nodup_add {p : Plan} (hp : (p.entries.map Prod.fst).Nodup) (t : TableName) (s : Strategy) :
    ((p.add t s).entries.map Prod.fst).Nodup := by
  unfold add
  split
  · exact hp
  · rename_i hnone
    have hfresh : ∀ s', (t, s') ∉ p.entries := by
      simpa [find?, List.lookup_eq_none_iff] using hnone
    rw [List.map_append, List.nodup_append]
    refine ⟨hp, List.pairwise_singleton _ t, ?_⟩
    intro u hu t' ht hut
    obtain ⟨⟨u', s'⟩, hentry, rfl⟩ := List.mem_map.1 hu
    obtain rfl := List.mem_singleton.1 ht
    exact hfresh s' (hut ▸ hentry)

theorem nodup_foldlM {rules : List ShardRule} {p plan : Plan}
    (h : rules.foldlM addRule p = .ok plan) (hp : (p.entries.map Prod.fst).Nodup) :
    (plan.entries.map Prod.fst).Nodup := by
  induction rules generalizing p with
  | nil =>
    cases h
    exact hp
  | cons r rest ih =>
    rw [List.foldlM_cons, addRule] at h
    cases hs : Strategy.ofRule r with
    | error e =>
      rw [hs] at h
      cases h
    | ok s =>
      rw [hs] at h
      cases s with
      | none => exact ih h hp
      | some s => exact ih h (nodup_add hp _ s)

/-- The first rule for a table decides its strategy. -/
theorem find?_first {rules : List ShardRule} {plan : Plan} (h : ofRules rules = .ok plan)
    {t : TableName} {r : ShardRule} (hr : IsFirst (·.Routes t) rules r) :
    ∃ s, r.Prescribes s ∧ plan.find? t = some s := by
  have hg := governing?_eq_some_iff.2 hr
  rcases find?_ofRules h t with ⟨hnone, -⟩ | ⟨q, s, hq, hs, hf⟩
  · rw [hg] at hnone
    cases hnone
  · obtain rfl := Option.some.inj (hg.symm.trans hq)
    exact ⟨s, Strategy.prescribes_of_ofRule hs, hf⟩

theorem isSome_find?_iff {rules : List ShardRule} {plan : Plan} (h : ofRules rules = .ok plan)
    (t : TableName) : (plan.find? t).isSome = true ↔ ∃ r ∈ rules, r.Routes t := by
  rw [← exists_isFirst_iff]
  constructor
  · intro hsome
    rcases find?_ofRules h t with ⟨-, hf⟩ | ⟨r, s, hr, -, -⟩
    · rw [hf] at hsome
      cases hsome
    · exact ⟨r, governing?_eq_some_iff.1 hr⟩
  · intro hfirst
    obtain ⟨r, hr⟩ := hfirst
    obtain ⟨s, -, hf⟩ := find?_first h hr
    rw [hf]
    rfl

/-- Rules of unknown strategies can be left out. -/
theorem ofRules_filter (rules : List ShardRule) :
    ofRules (rules.filter (·.Known)) = ofRules rules := by
  have hskip : (fun p r => if decide r.Known = true then addRule p r else pure p) = addRule := by
    funext p r
    split
    · rfl
    · rename_i hunknown
      rw [decide_eq_true_iff] at hunknown
      rw [addRule, Strategy.ofRule_of_not_known hunknown]
      rfl
  rw [ofRules, List.foldlM_filter, hskip, ofRules]

/-- The plan of two lists is that of the first, filled up from that of the second. -/
theorem ofRules_append {rules more : List ShardRule} {p q : Plan} (hp : ofRules rules = .ok p)
    (hq : ofRules more = .ok q) :
    ∃ union, ofRules (rules ++ more) = .ok union ∧
      ∀ t, union.find? t = (p.find? t).or (q.find? t) := by
  obtain ⟨union, hu⟩ := foldlM_ok_of (not_faulty_of_ofRules hq) p
  have happend : ofRules (rules ++ more) = ofRules rules >>= fun p => more.foldlM addRule p :=
    List.foldlM_append
  refine ⟨union, by rw [happend, hp]; exact hu, fun t => ?_⟩
  rcases find?_foldlM hu t with ⟨hg, hf⟩ | ⟨r, s, hg, hs, hf⟩
  · rcases find?_ofRules hq t with ⟨-, hnone⟩ | ⟨r, s, hg', -, -⟩
    · rw [hf, hnone, Option.or_none]
    · rw [hg] at hg'
      cases hg'
  · rcases find?_ofRules hq t with ⟨hg', -⟩ | ⟨r', s', hg', hs', hsome⟩
    · rw [hg] at hg'
      cases hg'
    · obtain rfl := Option.some.inj (hg.symm.trans hg')
      obtain rfl := Option.some.inj (Except.ok.inj (hs.symm.trans hs'))
      rw [hf, hsome]

/-- **What a list of rules comes to.** It fails exactly if some rule is faulty, also one whose table
has a strategy already, and the failure names the table of the first such rule. Otherwise a table
has a strategy exactly if a rule of a known one is for it, and it is that of the first such rule.
Rules of unknown strategies make no difference, and of two lists the first has precedence. -/
theorem ofRules_earliest (rules : List ShardRule) :
    (∀ e, ofRules rules = .error e ↔
      ∃ r fault, IsFirst ShardRule.Faulty rules r ∧ r.HasFault fault ∧
        e = .invalidRule r.db r.table fault) ∧
    ((∃ plan, ofRules rules = .ok plan) ↔ ∀ r ∈ rules, ¬ r.Faulty) ∧
    (∀ plan, ofRules rules = .ok plan →
      (plan.entries.map Prod.fst).Nodup ∧
      (∀ t, (plan.find? t).isSome = true ↔ ∃ r ∈ rules, r.Routes t) ∧
      ∀ t r, IsFirst (·.Routes t) rules r → ∃ s, r.Prescribes s ∧ plan.find? t = some s) ∧
    (∀ others : List ShardRule, others.filter (·.Known) = rules.filter (·.Known) →
      ofRules others = ofRules rules) ∧
    ∀ more p q, ofRules rules = .ok p → ofRules more = .ok q →
      ∃ union, ofRules (rules ++ more) = .ok union ∧
        ∀ t, union.find? t = (p.find? t).or (q.find? t) := by
  refine ⟨fun e => foldlM_error_iff, ?_, fun plan h => ⟨?_, ?_, ?_⟩, fun others h => ?_, ?_⟩
  · exact ⟨fun ⟨plan, h⟩ => not_faulty_of_ofRules h, fun h => foldlM_ok_of h {}⟩
  · exact nodup_foldlM h List.nodup_nil
  · exact isSome_find?_iff h
  · exact fun t r hr => find?_first h hr
  · rw [← ofRules_filter, h, ofRules_filter]
  · exact fun more p q hp hq => ofRules_append hp hq

/-- A rule of an unknown strategy, one that stands, and one that is too late and has ranges past the
words. -/
theorem ofRules_earliest_shadowed :
    let unknown : ShardRule := { db := "d", table := "t", tag := "hash" }
    let stands : ShardRule := { db := "d", table := "t", tag := "mod", modulus := 4 }
    let shadowed : ShardRule :=
      { db := "d", table := "t", tag := "range", ranges := 9223372036854775807, rangeWidth := 2 }
    ofRules [unknown, stands, shadowed] = .error (.invalidRule "d" "t" .ranges) ∧
      ofRules [unknown, stands] = ofRules [stands] ∧
      ∃ plan s union, ofRules [unknown, stands] = .ok plan ∧ stands.Prescribes s ∧
        plan.find? ⟨"d", "t"⟩ = some s ∧
        ofRules ([unknown, stands] ++ [stands]) = .ok union ∧
        union.find? ⟨"d", "t"⟩ = (plan.find? ⟨"d", "t"⟩).or (plan.find? ⟨"d", "t"⟩) := by
  intro unknown stands shadowed
  have hplan : ofRules [unknown, stands] = .ok ⟨[(⟨"d", "t"⟩, .modulo ⟨4⟩)]⟩ := rfl
  obtain ⟨-, hok, hentries, hunknown, hunion⟩ := ofRules_earliest [unknown, stands]
  have hfault : shadowed.HasFault .ranges := .ranges rfl (by decide)
  have hfirst : IsFirst ShardRule.Faulty [unknown, stands, shadowed] shadowed :=
    ⟨[unknown, stands], [], rfl, ⟨_, hfault⟩, hok.1 ⟨_, hplan⟩⟩
  have hknown : ¬ unknown.Known := by decide
  have hstands : IsFirst (·.Routes ⟨"d", "t"⟩) [unknown, stands] stands := by
    refine ⟨[unknown], [], rfl, ⟨rfl, rfl, .modulo, rfl⟩, ?_⟩
    intro q hq hroutes
    obtain rfl := List.mem_singleton.1 hq
    exact hknown hroutes.2.2
  obtain ⟨s, hs, hfind⟩ := (hentries _ hplan).2.2 _ _ hstands
  obtain ⟨union, hu, hor⟩ := hunion [stands] _ _ hplan rfl
  refine ⟨?_, (hunknown [stands] (by decide)).symm, _, s, union, hplan, hs, hfind, hu, hor _⟩
  exact ((ofRules_earliest _).1 _).2 ⟨shadowed, .ranges, hfirst, hfault, rfl⟩

end Plan

end ReplicaRouter
