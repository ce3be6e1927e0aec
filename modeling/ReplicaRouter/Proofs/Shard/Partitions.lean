import ReplicaRouter.Proofs.Shard.Division
import ReplicaRouter.Proofs.Shard.Remainders
import ReplicaRouter.Shard.Plan

/-!
# Physical tables

A plan routes a table by the first rule that names it with a known strategy (`governing?`,
`Plan.find?_ofRules`). Whatever the keys, the number of the physical table is within the bound of
that rule (`Plan.tableName_within`): below the modulus (`Modulo.find_lt`), since a valid modulus is
below `2 ^ 63` and so is every remainder, or below the number of ranges (`Ranges.find_cases`).

The number is what follows the last underscore of a physical name, since no numeral holds one
(`append_numeral_inj`), so tables of one database never share a name (`Plan.tableName_eq_iff`).
-/

namespace ReplicaRouter

/-! ## Ranges -/

theorem Key.mapM_number_error {keys : List Key} {e : LookupError}
    (h : keys.mapM Key.number = .error e) : ∃ m, e = .malformed m := by
  induction keys with
  | nil => cases h
  | cons k rest ih =>
    rw [List.mapM_cons] at h
    cases hk : k.number with
    | error e' => rw [hk] at h; cases h; exact number_error hk
    | ok v =>
      rw [hk] at h
      cases hr : rest.mapM Key.number with
      | error e' => rw [hr] at h; cases h; exact ih hr
      | ok vs => rw [hr] at h; cases h

theorem Key.numberOfList_error {keys : List Key} {e : LookupError}
    (h : Key.numberOfList keys = .error e) : e = .keyMissing ∨ ∃ m, e = .malformed m := by
  rcases keys with _ | ⟨k, _ | ⟨k', rest⟩⟩
  · cases h; exact .inl rfl
  · exact .inr (number_error h)
  · simp only [numberOfList] at h
    cases hm : (k :: k' :: rest).mapM Key.number with
    | error e' => rw [hm] at h; cases h; exact .inr (mapM_number_error hm)
    | ok vs =>
      rw [hm] at h
      exact .inr (number_error (k := .text (joined vs)) h)

namespace Ranges

theorem find_cases {r : Ranges} (hr : r.spans ≠ []) (keys : List Key) :
    (∃ i : Nat, i < r.spans.length ∧ r.find keys = .ok i) ∨
      ∃ e, e ≠ .noPartitions ∧ r.find keys = .error e := by
  cases hn : Key.numberOfList keys with
  | error e =>
    refine .inr ⟨e, ?_, find_of_error hr hn⟩
    rcases Key.numberOfList_error hn with rfl | ⟨m, rfl⟩ <;> exact nofun
  | ok v =>
    rcases find_of_number hr hn with hfound | hf
    · exact .inl hfound
    · exact .inr ⟨.outOfRange, nofun, hf⟩

end Ranges

/-! ## Rules -/

def ShardRule.governs (t : TableName) (r : ShardRule) : Bool :=
  r.db = t.db ∧ r.table = t.table ∧ (StrategyKind.ofTag? r.tag).isSome

/-- The rule that decides how a table is routed: the first that names it with a known strategy. -/
def governing? (rules : List ShardRule) (t : TableName) : Option ShardRule :=
  rules.find? (·.governs t)

namespace Strategy

/-- What a rule that is accepted gives. -/
theorem ofRule_ok {r : ShardRule} {s : Option Strategy} (h : ofRule r = .ok s) :
    match StrategyKind.ofTag? r.tag with
    | none => s = none
    | some .modulo => 0 < r.modulus.toInt ∧ s = some (.modulo ⟨r.modulus.toUInt64⟩)
    | some .ranges => Span.split r.ranges r.rangeWidth ≠ [] ∧
        s = some (.ranges ⟨Span.split r.ranges r.rangeWidth⟩)
    | some (.calendar part) => s = some (.calendar part) := by
  unfold ofRule at h
  rcases hk : StrategyKind.ofTag? r.tag with _ | _ | _ | part
  · simp only [hk, Except.ok.injEq] at h
    exact h.symm
  · simp only [hk] at h
    split at h
    · cases h
    · rename_i hpos
      exact ⟨Int64.lt_iff_toInt_lt.1 (Int64.not_le.1 hpos), (Except.ok.inj h).symm⟩
  · simp only [hk] at h
    split at h
    · cases h
    · rename_i hne
      exact ⟨by simpa using hne, (Except.ok.inj h).symm⟩
  · simp only [hk, Except.ok.injEq] at h
    exact h.symm

theorem isSome_ofTag?_of_ofRule {r : ShardRule} {s : Option Strategy} (h : ofRule r = .ok s) :
    (StrategyKind.ofTag? r.tag).isSome = s.isSome := by
  have hs := ofRule_ok h
  rcases hk : StrategyKind.ofTag? r.tag with _ | _ | _ | part
  · rw [hk] at hs; rw [hs]; rfl
  · rw [hk] at hs; rw [hs.2]; rfl
  · rw [hk] at hs; rw [hs.2]; rfl
  · rw [hk] at hs; rw [hs]; rfl

theorem ofRule_modulo {r : ShardRule} {s : Strategy} (ht : r.tag = "mod")
    (h : ofRule r = .ok (some s)) :
    0 < r.modulus.toInt ∧ s = .modulo ⟨r.modulus.toUInt64⟩ := by
  have hs := ofRule_ok h
  rw [ht] at hs
  exact ⟨hs.1, Option.some.inj hs.2⟩

theorem ofRule_ranges {r : ShardRule} {s : Strategy} (ht : r.tag = "range")
    (h : ofRule r = .ok (some s)) :
    Span.split r.ranges r.rangeWidth ≠ [] ∧ s = .ranges ⟨Span.split r.ranges r.rangeWidth⟩ := by
  have hs := ofRule_ok h
  rw [ht] at hs
  exact ⟨hs.1, Option.some.inj hs.2⟩

/-- A strategy that a rule gives needs a key. -/
theorem find_nil_of_ofRule {r : ShardRule} {s : Strategy} (h : ofRule r = .ok (some s))
    (offset : Int) : s.find offset [] = .error .keyMissing := by
  have hs := ofRule_ok h
  rcases hk : StrategyKind.ofTag? r.tag with _ | _ | _ | part
  · rw [hk] at hs; cases hs
  · rw [hk] at hs
    obtain ⟨hpos, rfl⟩ := hs.imp_right Option.some.inj
    exact Modulo.find_nil hpos
  · rw [hk] at hs
    obtain ⟨hne, rfl⟩ := hs.imp_right Option.some.inj
    exact Ranges.find_of_error hne rfl
  · rw [hk] at hs
    obtain rfl := Option.some.inj hs
    rfl

end Strategy

namespace Plan

theorem find?_foldlM {rules : List ShardRule} {p plan : Plan}
    (h : rules.foldlM addRule p = .ok plan) (t : TableName) :
    (governing? rules t = none ∧ plan.find? t = p.find? t) ∨
      ∃ r s, governing? rules t = some r ∧ Strategy.ofRule r = .ok (some s) ∧
        plan.find? t = (p.find? t).or (some s) := by
  -- Over any plan built so far: what it has stands, so only a table without a strategy gets one.
  induction rules generalizing p with
  | nil => cases h; exact .inl ⟨rfl, rfl⟩
  | cons r rest ih =>
    rw [List.foldlM_cons] at h
    rcases hs : Strategy.ofRule r with e | s
    · rw [addRule, hs] at h; cases h
    have htag := Strategy.isSome_ofTag?_of_ofRule hs
    rw [addRule, hs] at h
    cases s with
    | none =>
      have hrest : rest.foldlM addRule p = .ok plan := h
      have hgov : r.governs t = false := by simp [ShardRule.governs, htag]
      rw [governing?, List.find?_cons_of_neg (by simp [hgov])]
      exact ih hrest
    | some s =>
      have hrest : rest.foldlM addRule (p.add ⟨r.db, r.table⟩ s) = .ok plan := h
      have hadd := p.find?_add ⟨r.db, r.table⟩ t s
      by_cases hname : t = ⟨r.db, r.table⟩
      · have hgov : r.governs t = true := by simp [ShardRule.governs, htag, hname]
        rw [if_pos hname, ← hname] at hadd
        rw [← hname] at hrest
        refine .inr ⟨r, s, List.find?_cons_of_pos hgov, hs, ?_⟩
        rcases ih hrest with ⟨-, hfind⟩ | ⟨r', s', -, -, hfind⟩
        · exact hfind.trans hadd
        · rw [hfind, hadd, Option.or_assoc]
          rfl
      · have hgov : r.governs t = false := by
          simp only [ShardRule.governs, decide_eq_false_iff_not]
          rintro ⟨hdb, htable, -⟩
          exact hname (by rw [hdb, htable])
        rw [if_neg hname] at hadd
        rw [governing?, List.find?_cons_of_neg (by simp [hgov]), ← hadd]
        exact ih hrest

theorem find?_ofRules {rules : List ShardRule} {plan : Plan} (h : ofRules rules = .ok plan)
    (t : TableName) :
    (governing? rules t = none ∧ plan.find? t = none) ∨
      ∃ r s, governing? rules t = some r ∧ Strategy.ofRule r = .ok (some s) ∧
        plan.find? t = some s :=
  find?_foldlM h t

/-- **Routing stays within the partitions of the rule that governs a table.** -/
theorem tableName_within {rules : List ShardRule} {plan : Plan} (h : ofRules rules = .ok plan)
    (offset : Int) (t : TableName) (keys : List Key) :
    let name := t.db ++ "." ++ t.table
    match governing? rules t with
    | none => plan.find? t = none ∧ plan.tableName offset t keys = .ok name
    | some r =>
      (plan.find? t).isSome = true ∧
      (keys = [] → plan.tableName offset t keys = .error .keyMissing) ∧
      (r.tag = "mod" → keys ≠ [] → ∃ i : Nat, (i : Int) < r.modulus.toInt ∧
        plan.tableName offset t keys = .ok (name ++ "_" ++ Decimal.ofNat i)) ∧
      (r.tag = "range" → plan.tableName offset t keys ≠ .error .noPartitions ∧
        ∀ physical, plan.tableName offset t keys = .ok physical →
          ∃ i : Nat, (i : Int) < r.ranges.toInt ∧ physical = name ++ "_" ++ Decimal.ofNat i) := by
  intro name
  rcases find?_ofRules h t with ⟨hg, hf⟩ | ⟨r, s, hg, hs, hf⟩
  · rw [hg]
    exact ⟨hf, by rw [tableName, hf]; rfl⟩
  have hname : plan.tableName offset t keys =
      (s.find offset keys).map fun i => name ++ "_" ++ Decimal.ofInt i := by
    rw [tableName, hf]; rfl
  rw [hg]
  refine ⟨by rw [hf]; rfl, fun hnil => ?_, fun ht hne => ?_, fun ht => ?_⟩
  · subst hnil
    rw [hname, Strategy.find_nil_of_ofRule hs]
    rfl
  · obtain ⟨hpos, rfl⟩ := Strategy.ofRule_modulo ht hs
    obtain ⟨i, hi, hfind⟩ := Modulo.find_lt hpos hne
    refine ⟨i, hi, ?_⟩
    rw [hname, Strategy.find, hfind]
    rfl
  · obtain ⟨hne, rfl⟩ := Strategy.ofRule_ranges ht hs
    have hlength := Span.length_split hne
    rw [hname, Strategy.find]
    rcases Ranges.find_cases (r := ⟨Span.split r.ranges r.rangeWidth⟩) hne keys with
      ⟨i, hi, hfind⟩ | ⟨e, he, hfind⟩
    · rw [hfind]
      refine ⟨nofun, fun physical hp => ⟨i, ?_, (Except.ok.inj hp).symm⟩⟩
      exact hlength ▸ Int.ofNat_lt.2 hi
    · rw [hfind]
      exact ⟨fun h => he (Except.error.inj h), nofun⟩

/-- Keys of every kind, below a modulus of 3. -/
theorem tableName_within_hashed :
    ∃ plan, ofRules [⟨"d", "t", 3, 0, "mod", 0⟩] = .ok plan ∧ ∃ i : Nat, i < 3 ∧
      plan.tableName 0 ⟨"d", "t"⟩ [.int (-1), .uint 5, .text "x", .bytes [255]] =
        .ok ("d.t_" ++ Decimal.ofNat i) := by
  have hplan : ofRules [⟨"d", "t", 3, 0, "mod", 0⟩] = .ok ⟨[(⟨"d", "t"⟩, .modulo ⟨3⟩)]⟩ := rfl
  have h := tableName_within hplan 0 ⟨"d", "t"⟩ [.int (-1), .uint 5, .text "x", .bytes [255]]
  obtain ⟨i, hi, hname⟩ := h.2.2.1 rfl (by decide)
  exact ⟨_, hplan, i, Int.ofNat_lt.1 hi, hname⟩

end Plan

/-! ## Names -/

/-- Texts that end in a mark and what does not hold it are cut alike at the last mark. -/
theorem append_mark_inj {c : Char} {a b u v : List Char} (hu : c ∉ u) (hv : c ∉ v) :
    a ++ c :: u = b ++ c :: v ↔ a = b ∧ u = v := by
  -- Of two cuts of a text, the part between them would belong to the end of one.
  have hcut : ∀ {w x y : List Char}, c ∉ x → c :: x = w ++ c :: y → w = [] ∧ x = y := by
    intro w x y hx h
    rcases w with _ | ⟨d, w⟩
    · exact ⟨rfl, (List.cons.inj h).2⟩
    · refine absurd ?_ hx
      rw [(List.cons.inj h).2]
      exact List.mem_append_right w (.head y)
  constructor
  · intro h
    rcases List.append_eq_append_iff.1 h with ⟨w, rfl, hw⟩ | ⟨w, rfl, hw⟩
    · obtain ⟨rfl, huv⟩ := hcut hu hw
      exact ⟨(List.append_nil a).symm, huv⟩
    · obtain ⟨rfl, hvu⟩ := hcut hv hw
      exact ⟨List.append_nil b, hvu.symm⟩
  · rintro ⟨rfl, rfl⟩
    rfl

theorem append_numeral_inj {a b : String} {i j : Int} :
    a ++ "_" ++ Decimal.ofInt i = b ++ "_" ++ Decimal.ofInt j ↔ a = b ∧ i = j := by
  have hmark : ∀ i : Int, '_' ∉ (Decimal.ofInt i).toList := by
    intro i
    rw [Decimal.toList_ofInt, List.mem_append, not_or]
    refine ⟨?_, Nat.underscore_not_in_toDigits⟩
    split
    · decide
    · exact List.not_mem_nil
  have hlist : ∀ (a : String) (i : Int), (a ++ "_" ++ Decimal.ofInt i).toList =
      a.toList ++ '_' :: (Decimal.ofInt i).toList := by
    intro a i
    simp
  rw [← String.toList_inj, hlist, hlist, append_mark_inj (hmark i) (hmark j), String.toList_inj,
    String.toList_inj, Decimal.ofInt_injective.eq_iff]

theorem TableName.qualified_inj {db t₁ t₂ : String} :
    qualified ⟨db, t₁⟩ = qualified ⟨db, t₂⟩ ↔ t₁ = t₂ := by
  rw [qualified, qualified, ← String.toList_inj]
  simp [String.toList_inj]

namespace Plan

theorem tableName_of_strategy {plan : Plan} {t : TableName} {s : Strategy}
    (hs : plan.find? t = some s) {offset : Int} {keys : List Key} {name : String}
    (h : plan.tableName offset t keys = .ok name) :
    ∃ i, s.find offset keys = .ok i ∧ name = t.qualified ++ "_" ++ Decimal.ofInt i := by
  rw [tableName, hs] at h
  cases hi : s.find offset keys with
  | error e => simp [hi, Except.map] at h
  | ok i =>
    refine ⟨i, rfl, ?_⟩
    simpa [hi, Except.map] using h.symm

/-- **Physical names do not collide.** Two tables of a database that both have a strategy are given
one name only if they are the same table and their keys the same number, whatever the tables are
called, at whatever local offsets. -/
theorem tableName_eq_iff {plan : Plan} {db t₁ t₂ : String} {s₁ s₂ : Strategy}
    (hs₁ : plan.find? ⟨db, t₁⟩ = some s₁) (hs₂ : plan.find? ⟨db, t₂⟩ = some s₂)
    {offset₁ offset₂ : Int} {keys₁ keys₂ : List Key} {name₁ name₂ : String}
    (h₁ : plan.tableName offset₁ ⟨db, t₁⟩ keys₁ = .ok name₁)
    (h₂ : plan.tableName offset₂ ⟨db, t₂⟩ keys₂ = .ok name₂) :
    ∃ i₁ i₂, s₁.find offset₁ keys₁ = .ok i₁ ∧ s₂.find offset₂ keys₂ = .ok i₂ ∧
      (name₁ = name₂ ↔ t₁ = t₂ ∧ i₁ = i₂) := by
  obtain ⟨i₁, hi₁, rfl⟩ := tableName_of_strategy hs₁ h₁
  obtain ⟨i₂, hi₂, rfl⟩ := tableName_of_strategy hs₂ h₂
  refine ⟨i₁, i₂, hi₁, hi₂, ?_⟩
  rw [append_numeral_inj, TableName.qualified_inj]

/-- A table called like another with a number of its own, and the number of a year before 0. -/
theorem tableName_eq_iff_negative :
    let plan : Plan := ⟨[(⟨"d", "t"⟩, .calendar .year), (⟨"d", "t_-249"⟩, .modulo ⟨3⟩)]⟩
    let past := [Key.int (-70000000000)]
    plan.tableName 0 ⟨"d", "t"⟩ past = .ok "d.t_-249" ∧
      plan.tableName 0 ⟨"d", "t_-249"⟩ [.int 5] = .ok "d.t_-249_2" ∧
      ("d.t_-249" = "d.t_-249_2" ↔ "t" = "t_-249" ∧ (-249 : Int) = 2) := by
  intro plan past
  have h₁ : plan.tableName 0 ⟨"d", "t"⟩ past = .ok "d.t_-249" := by decide +kernel
  have h₂ : plan.tableName 0 ⟨"d", "t_-249"⟩ [.int 5] = .ok "d.t_-249_2" := by decide +kernel
  have hs₁ : plan.find? ⟨"d", "t"⟩ = some (.calendar .year) := rfl
  have hs₂ : plan.find? ⟨"d", "t_-249"⟩ = some (.modulo ⟨3⟩) := rfl
  obtain ⟨i₁, i₂, hi₁, hi₂, hiff⟩ := tableName_eq_iff hs₁ hs₂ h₁ h₂
  have hyear : Strategy.find 0 past (.calendar .year) = .ok (-249) := by decide +kernel
  have hremainder : Strategy.find 0 [.int 5] (.modulo ⟨3⟩) = .ok 2 := by decide +kernel
  obtain rfl := Except.ok.inj (hi₁.symm.trans hyear)
  obtain rfl := Except.ok.inj (hi₂.symm.trans hremainder)
  exact ⟨h₁, h₂, hiff⟩

end Plan

end ReplicaRouter
