import ReplicaRouter.Proofs.Shard.Division

/-!
# Boundaries of ranges

Both boundary tests look a place up and compare an edge of its span with the key
(`Ranges.testEdge`), so they fail at the same places, those of no span
(`Ranges.testEdge_outOfRange_iff`). In a division of a key space the first edges are the multiples
of the width and the last ones stand before those (`Ranges.startsAt_split`, `Ranges.stopsAt_split`).
An edge lies in its own span, so the look-up finds it there (`Ranges.find_of_isBoundary`), and what
follows the last key of a span is the first of the next one or outside the key space
(`Ranges.next_of_stopsAt`).
-/

namespace ReplicaRouter.Ranges

/-! ## Tests -/

/-- Whether the key is an edge of the span at a place. -/
def testEdge (edge : Span → Int64) (r : Ranges) (key : Key) (index : Nat) :
    Except LookupError Bool :=
  match r.spans[index]? with
  | none => .error .outOfRange
  | some s => key.number.map (edge s == ·)

theorem startsAt_eq (r : Ranges) (k : Key) (i : Nat) : r.startsAt k i = r.testEdge Span.first k i :=
  rfl

theorem stopsAt_eq (r : Ranges) (k : Key) (i : Nat) : r.stopsAt k i = r.testEdge Span.last k i :=
  rfl

section
variable {edge : Span → Int64} {spans : List Span} {k : Key} {i : Nat}

theorem testEdge_of_lt {v : Int64} (hk : k.number = .ok v) (hi : i < spans.length) :
    testEdge edge ⟨spans⟩ k i = .ok (decide (v.toInt = (edge spans[i]).toInt)) := by
  rw [testEdge, List.getElem?_eq_getElem hi, hk]
  refine congrArg Except.ok (decide_eq_decide.2 ?_)
  rw [Int64.toInt_inj, eq_comm]

/-- The place is looked up before the key is read, which fails for reasons of its own. -/
theorem testEdge_outOfRange_iff :
    testEdge edge ⟨spans⟩ k i = .error .outOfRange ↔ spans.length ≤ i := by
  refine ⟨fun h => ?_, fun hi => ?_⟩
  · by_contra hi
    rw [testEdge, List.getElem?_eq_getElem (Nat.lt_of_not_le hi)] at h
    cases hn : k.number with
    | ok v => rw [hn] at h; cases h
    | error e =>
      obtain ⟨m, rfl⟩ := Key.number_error hn
      rw [hn] at h
      cases h
  · rw [testEdge, List.getElem?_eq_none hi]

end

/-- The key is the first or the last of the span at this place. -/
def IsBoundary (r : Ranges) (k : Key) (i : Nat) : Prop :=
  r.startsAt k i = .ok true ∨ r.stopsAt k i = .ok true

/-! ## Divisions -/

section
variable {count width : Int64} (h : Span.split count width ≠ [])
include h

theorem lt_length_split {i : Nat} (hi : (i : Int) < count.toInt) :
    i < (Span.split count width).length := by
  have := Span.length_split h
  omega

theorem testEdge_split_outOfRange_iff {edge : Span → Int64} {k : Key} {i : Nat} :
    testEdge edge ⟨Span.split count width⟩ k i = .error .outOfRange ↔ count.toInt ≤ i := by
  have := Span.length_split h
  rw [testEdge_outOfRange_iff]
  omega

theorem IsBoundary.lt {k : Key} {i : Nat} (hb : IsBoundary ⟨Span.split count width⟩ k i) :
    (i : Int) < count.toInt := by
  apply Int.not_le.1
  intro hle
  rw [IsBoundary, startsAt_eq, stopsAt_eq, (testEdge_split_outOfRange_iff h).2 hle,
    (testEdge_split_outOfRange_iff h).2 hle] at hb
  rcases hb with hb | hb <;> cases hb

section
variable {k : Key} {v : Int64} (hk : k.number = .ok v) {i : Nat}
include hk

theorem startsAt_split (hi : (i : Int) < count.toInt) :
    startsAt ⟨Span.split count width⟩ k i = .ok (decide (v.toInt = i * width.toInt)) := by
  have hlt := lt_length_split h hi
  rw [startsAt_eq, testEdge_of_lt hk hlt, (Span.getElem_split h hlt).1]

theorem stopsAt_split (hi : (i : Int) < count.toInt) :
    stopsAt ⟨Span.split count width⟩ k i = .ok (decide (v.toInt = (i + 1) * width.toInt - 1)) := by
  have hlt := lt_length_split h hi
  rw [stopsAt_eq, testEdge_of_lt hk hlt, (Span.getElem_split h hlt).2]

/-- Division with remainder: an edge has the quotient of its span, as the width is positive. -/
theorem IsBoundary.quotient (hb : IsBoundary ⟨Span.split count width⟩ k i) :
    v.toInt / width.toInt = i := by
  have hi := hb.lt h
  have hlt := lt_length_split h hi
  have hwidth := (Span.split_ne_nil_iff.1 h).2.1
  apply (Span.mem_getElem_split h hlt v.toInt).1
  rw [(Span.getElem_split h hlt).1, (Span.getElem_split h hlt).2, Int.add_mul, Int.one_mul]
  rw [IsBoundary, startsAt_split h hk hi, stopsAt_split h hk hi, Int.add_mul, Int.one_mul] at hb
  simp only [Except.ok.injEq, decide_eq_true_iff] at hb
  omega

theorem find_of_isBoundary (hb : IsBoundary ⟨Span.split count width⟩ k i) :
    find ⟨Span.split count width⟩ [k] = .ok i := by
  have hquotient := hb.quotient h hk
  have hspace := (Span.quotient_lt_iff h v.toInt).1 ⟨by omega, hquotient ▸ hb.lt h⟩
  have hlist : Key.numberOfList [k] = .ok v := hk
  rw [find_split_of_number h hlist, if_pos hspace, hquotient]

end

/-- The word after the last key of a span. -/
theorem next_of_stopsAt {v : Int64} {i : Nat}
    (hstop : stopsAt ⟨Span.split count width⟩ (.int v) i = .ok true) :
    (i : Int) < count.toInt ∧ (v + 1).toInt = v.toInt + 1 ∧
      (v + 1).toInt = (i + 1) * width.toInt := by
  have hi := IsBoundary.lt h (.inr hstop)
  rw [stopsAt_split h (k := .int v) rfl hi, Except.ok.injEq, decide_eq_true_iff] at hstop
  obtain ⟨-, hwidth, hsize⟩ := Span.split_ne_nil_iff.1 h
  have hle : ((i : Int) + 1) * width.toInt ≤ count.toInt * width.toInt :=
    Int.mul_le_mul_of_nonneg_right hi (Int.le_of_lt hwidth)
  have hnonneg : (0 : Int) ≤ (i + 1) * width.toInt :=
    Int.mul_nonneg (by omega) (Int.le_of_lt hwidth)
  have hnext : (v + 1).toInt = v.toInt + 1 := by
    rw [Int64.toInt_add, Int64.toInt_one]
    exact Span.bmod_of_fits (by omega) (by omega)
  exact ⟨hi, hnext, by omega⟩

end

/-- **The boundary tests agree with the look-up.** At the places of a division they answer exactly
whether the key is a multiple of the width or the word before one, and at no others. A key that is a
boundary is found in the range it bounds, so it bounds no other. The word after the last key of a
range does not wrap: it is the first of the next range and found there, or past the last range and
found nowhere. -/
theorem boundaries_split {count width : Int64} (h : Span.split count width ≠ []) :
    let r : Ranges := ⟨Span.split count width⟩
    (∀ {k : Key} {v : Int64}, k.number = .ok v →
      (∀ i : Nat, (i : Int) < count.toInt →
        r.startsAt k i = .ok (decide (v.toInt = i * width.toInt)) ∧
        r.stopsAt k i = .ok (decide (v.toInt = (i + 1) * width.toInt - 1))) ∧
      (∀ i, r.IsBoundary k i → r.find [k] = .ok i) ∧
      ∀ i j, r.IsBoundary k i → r.IsBoundary k j → i = j) ∧
    (∀ (v : Int64) (i : Nat), r.stopsAt (.int v) i = .ok true →
      (v + 1).toInt = v.toInt + 1 ∧
      ((i : Int) + 1 < count.toInt → r.startsAt (.int (v + 1)) (i + 1) = .ok true ∧
        r.find [.int (v + 1)] = .ok ((i : Int) + 1)) ∧
      ((i : Int) + 1 = count.toInt → r.find [.int (v + 1)] = .error .outOfRange)) ∧
    ∀ (k : Key) (i : Nat),
      (r.startsAt k i = .error .outOfRange ↔ count.toInt ≤ i) ∧
      (r.stopsAt k i = .error .outOfRange ↔ count.toInt ≤ i) := by
  intro r
  refine ⟨fun {k v} hk => ⟨fun i hi => ⟨startsAt_split h hk hi, stopsAt_split h hk hi⟩,
    fun i => find_of_isBoundary h hk, fun i j hi hj => ?_⟩, fun v i hstop => ?_,
    fun k i => ⟨testEdge_split_outOfRange_iff h, testEdge_split_outOfRange_iff h⟩⟩
  · have hquotient := (hi.quotient h hk).symm.trans (hj.quotient h hk)
    omega
  · obtain ⟨hi, hnext, hvalue⟩ := next_of_stopsAt h hstop
    have hnumber : (Key.int (v + 1)).number = .ok (v + 1) := rfl
    refine ⟨hnext, fun hlt => ?_, fun hlast => ?_⟩
    · have hstart : r.startsAt (.int (v + 1)) (i + 1) = .ok true := by
        rw [startsAt_split h hnumber (by omega), hvalue, Int.natCast_succ, decide_eq_true rfl]
      exact ⟨hstart, find_of_isBoundary h hnumber (.inl hstart)⟩
    · have hlist : Key.numberOfList [.int (v + 1)] = .ok (v + 1) := rfl
      rw [find_split_of_number h hlist, if_neg (by rw [hvalue, hlast]; omega)]

/-- Ranges of one key each, which is both the first and the last of its range, and a range that ends
before the largest word. -/
theorem boundaries_split_limit :
    let single : Ranges := ⟨Span.split 3 1⟩
    let whole : Ranges := ⟨Span.split 1 9223372036854775807⟩
    Span.split 3 1 ≠ [] ∧ Span.split 1 9223372036854775807 ≠ [] ∧
      single.startsAt (.text "+1") 1 = .ok true ∧ single.stopsAt (.text "+1") 1 = .ok true ∧
      single.find [.text "+1"] = .ok 1 ∧ single.find [.int 2] = .ok 2 ∧
      whole.stopsAt (.int 9223372036854775806) 0 = .ok true ∧
      whole.find [.int 9223372036854775807] = .error .outOfRange ∧
      whole.startsAt (.text "x") 1 = .error .outOfRange := by
  intro single whole
  have hsingle : Span.split 3 1 ≠ [] := by decide
  have hwhole : Span.split 1 9223372036854775807 ≠ [] := by decide
  have hone : (Key.text "+1").number = .ok 1 := by decide
  obtain ⟨hedges, hnext, -⟩ := boundaries_split hsingle
  obtain ⟨hwholeEdges, hpast, hplaces⟩ := boundaries_split hwhole
  obtain ⟨htests, hfound, -⟩ := hedges hone
  obtain ⟨hstart, hstop⟩ := htests 1 (by decide)
  have hlast : single.stopsAt (.int 1) 1 = .ok true :=
    ((hedges (k := .int 1) rfl).1 1 (by decide)).2
  obtain ⟨-, hinner, -⟩ := hnext 1 1 hlast
  have hend : whole.stopsAt (.int 9223372036854775806) 0 = .ok true :=
    ((hwholeEdges (k := .int 9223372036854775806) rfl).1 0 (by decide)).2
  obtain ⟨-, -, houter⟩ := hpast 9223372036854775806 0 hend
  exact ⟨hsingle, hwhole, hstart, hstop, hfound 1 (.inl hstart), (hinner (by decide)).2, hend,
    houter (by decide), (hplaces (.text "x") 1).1.2 (by decide)⟩

end ReplicaRouter.Ranges
