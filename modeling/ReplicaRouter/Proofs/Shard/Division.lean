import ReplicaRouter.Proofs.Shard.Integers

/-!
# Division of a key space

`Span.split count width` exists exactly if `count * width` keys fit in the signed words
(`Span.split_ne_nil_iff`). Then no step of computing it wraps (`Span.exact_of_lt`), so its spans are
the intervals from `i * width` to `(i + 1) * width - 1`, and a key lies in the span at place `i` if
its quotient by the width is `i` (`Span.contains_getElem_split`). Everything else follows from that:
the spans tile the key space (`Span.tiles_split`), and the first span that holds a key stands at the
quotient (`Ranges.find_split`).
-/

namespace ReplicaRouter

namespace Span

/-! ## When there is a division -/

theorem split_ne_nil_iff {count width : Int64} : split count width ≠ [] ↔
    0 < count.toInt ∧ 0 < width.toInt ∧ count.toInt * width.toInt < 2 ^ 63 := by
  have hpos : ∀ n : Int64, ¬ n ≤ 0 ↔ 0 < n.toInt := fun n => by
    rw [Int64.not_le, Int64.lt_iff_toInt_lt, Int64.toInt_zero]
  rw [← hpos count, ← hpos width, ← Int.not_le, ← not_or, ← not_or]
  unfold split
  split
  · rename_i hnone
    exact ⟨fun h => absurd rfl h, fun h => absurd hnone h⟩
  · rename_i hsome
    refine ⟨fun _ => hsome, fun _ => ?_⟩
    have hcount := (hpos count).1 fun h => hsome (.inl h)
    apply List.ne_nil_of_length_pos
    rw [List.length_map, List.length_range]
    omega

/-! ## The spans of a division -/

/-- No step of computing the span at a place wraps. -/
structure Exact (i : Nat) (width : Int64) : Prop where
  place : (Int64.ofNat i).toInt = i
  first : (Int64.ofNat i * width).toInt = i * width.toInt
  next : (Int64.ofNat i + 1).toInt = i + 1
  stop : ((Int64.ofNat i + 1) * width).toInt = (i + 1) * width.toInt
  last : ((Int64.ofNat i + 1) * width - 1).toInt = (i + 1) * width.toInt - 1

/-- Spans that divide the keys from 0 to `count * width - 1` equally. -/
structure Tiles (spans : List Span) (count width : Int) : Prop where
  length : (spans.length : Int) = count
  extent : ∀ s ∈ spans, s.last.toInt = s.first.toInt + width - 1
  adjacent : ∀ (i : Nat) (h : i + 1 < spans.length),
    spans[i + 1].first.toInt = spans[i].last.toInt + 1
  disjoint : spans.Pairwise fun s t => s.last.toInt < t.first.toInt
  covers : ∀ n : Int,
    (∃ s ∈ spans, s.first.toInt ≤ n ∧ n ≤ s.last.toInt) ↔ 0 ≤ n ∧ n < count * width

/-- A value within the signed words is not wrapped. -/
theorem bmod_of_fits {n : Int} (h0 : 0 ≤ n) (h1 : n < 2 ^ 63) : n.bmod (2 ^ 64) = n := by
  apply Int.bmod_eq_of_le
  · omega
  · omega

section
variable {count width : Int64} (h : split count width ≠ [])
include h

theorem exact_of_lt {i : Nat} (hi : (i : Int) < count.toInt) : Exact i width := by
  obtain ⟨-, hwidth, hsize⟩ := split_ne_nil_iff.1 h
  have hstop : ((i : Int) + 1) * width.toInt ≤ count.toInt * width.toInt :=
    Int.mul_le_mul_of_nonneg_right hi (Int.le_of_lt hwidth)
  have hfirst : (0 : Int) ≤ i * width.toInt :=
    Int.mul_nonneg (Int.natCast_nonneg i) (Int.le_of_lt hwidth)
  have hnext : ((i : Int) + 1) * width.toInt = i * width.toInt + width.toInt := by
    rw [Int.add_mul, Int.one_mul]
  have hcount := count.toInt_lt
  have eplace : (Int64.ofNat i).toInt = i := Int64.toInt_ofNat_of_lt (by omega)
  have enext : (Int64.ofNat i + 1).toInt = i + 1 := by
    rw [Int64.toInt_add, eplace, Int64.toInt_one]
    exact bmod_of_fits (by omega) (by omega)
  have estop : ((Int64.ofNat i + 1) * width).toInt = (i + 1) * width.toInt := by
    rw [Int64.toInt_mul, enext]
    exact bmod_of_fits (by omega) (by omega)
  refine ⟨eplace, ?_, enext, estop, ?_⟩
  · rw [Int64.toInt_mul, eplace]
    exact bmod_of_fits hfirst (by omega)
  · rw [Int64.toInt_sub, estop, Int64.toInt_one]
    exact bmod_of_fits (by omega) (by omega)

theorem length_split : ((split count width).length : Int) = count.toInt := by
  have hcount := (split_ne_nil_iff.1 h).1
  unfold split at h ⊢
  split at h
  · exact absurd rfl h
  · rename_i hsome
    rw [if_neg hsome, List.length_map, List.length_range]
    exact Int.toNat_of_nonneg (Int.le_of_lt hcount)

theorem getElem_split {i : Nat} (hi : i < (split count width).length) :
    (split count width)[i].first.toInt = i * width.toInt ∧
      (split count width)[i].last.toInt = (i + 1) * width.toInt - 1 := by
  have hlength := length_split h
  have hexact := exact_of_lt h (i := i) (by omega)
  have hspan : (split count width)[i] =
      ⟨Int64.ofNat i * width, (Int64.ofNat i + 1) * width - 1⟩ := by
    unfold split at h ⊢
    split at h
    · exact absurd rfl h
    · rename_i hsome
      simp only [if_neg hsome, List.getElem_map, List.getElem_range]
  rw [hspan]
  exact ⟨hexact.first, hexact.last⟩

/-- Division with remainder: `n` is in the interval of its quotient and in no other. -/
theorem mem_getElem_split {i : Nat} (hi : i < (split count width).length) (n : Int) :
    ((split count width)[i].first.toInt ≤ n ∧ n ≤ (split count width)[i].last.toInt) ↔
      n / width.toInt = i := by
  have hwidth := (split_ne_nil_iff.1 h).2.1
  obtain ⟨hfirst, hlast⟩ := getElem_split h hi
  rw [hfirst, hlast, Int.le_sub_one_iff, ← Int.le_ediv_iff_mul_le hwidth,
    ← Int.ediv_lt_iff_lt_mul hwidth]
  omega

/-- The quotients of the keys of the space are the places. -/
theorem quotient_lt_iff (n : Int) : (0 ≤ n / width.toInt ∧ n / width.toInt < count.toInt) ↔
    0 ≤ n ∧ n < count.toInt * width.toInt := by
  have hwidth := (split_ne_nil_iff.1 h).2.1
  rw [Int.ediv_lt_iff_lt_mul hwidth, Int.le_ediv_iff_mul_le hwidth, Int.zero_mul]

theorem tiles_split : Tiles (split count width) count.toInt width.toInt := by
  have hlength := length_split h
  constructor
  case length => exact hlength
  case extent =>
    intro s hs
    obtain ⟨i, hi, rfl⟩ := List.getElem_of_mem hs
    obtain ⟨hfirst, hlast⟩ := getElem_split h hi
    rw [hfirst, hlast, Int.add_mul, Int.one_mul]
  case adjacent =>
    intro i hi
    rw [(getElem_split h hi).1, (getElem_split h (Nat.lt_of_succ_lt hi)).2, Int.sub_add_cancel,
      Int.natCast_succ]
  case disjoint =>
    refine List.pairwise_iff_getElem.2 fun i j hi hj hij => ?_
    rw [(getElem_split h hi).2, (getElem_split h hj).1]
    have : ((i : Int) + 1) * width.toInt ≤ j * width.toInt :=
      Int.mul_le_mul_of_nonneg_right (by omega) (Int.le_of_lt (split_ne_nil_iff.1 h).2.1)
    omega
  case covers =>
    intro n
    rw [← quotient_lt_iff h]
    constructor
    · intro hcovered
      obtain ⟨s, hs, hn⟩ := hcovered
      obtain ⟨i, hi, rfl⟩ := List.getElem_of_mem hs
      have := (mem_getElem_split h hi n).1 hn
      omega
    · intro hquotient
      obtain ⟨h0, h1⟩ := hquotient
      obtain ⟨i, hi⟩ := Int.eq_ofNat_of_zero_le h0
      exact ⟨_, List.getElem_mem (by omega), (mem_getElem_split h (i := i) (by omega) n).2 hi⟩

theorem findIdx?_split (v : Int64) : (split count width).findIdx? (·.contains v) =
    if 0 ≤ v.toInt ∧ v.toInt < count.toInt * width.toInt then some (v.toInt / width.toInt).toNat
      else none := by
  have hlength := length_split h
  have hcontains : ∀ s : Span, s.contains v = true ↔
      s.first.toInt ≤ v.toInt ∧ v.toInt ≤ s.last.toInt := fun s => by
    rw [contains, Bool.and_eq_true, decide_eq_true_iff, decide_eq_true_iff, Int64.le_iff_toInt_le,
      Int64.le_iff_toInt_le]
  split
  · rename_i hv
    obtain ⟨h0, h1⟩ := (quotient_lt_iff h v.toInt).2 hv
    have hi : (v.toInt / width.toInt).toNat < (split count width).length := by omega
    apply List.findIdx?_eq_some_iff_getElem.2
    refine ⟨hi, ?_, fun j hj hin => ?_⟩
    · rw [hcontains, mem_getElem_split h hi]
      omega
    · rw [hcontains, mem_getElem_split h (Nat.lt_trans hj hi)] at hin
      omega
  · rename_i hv
    apply List.findIdx?_eq_none_iff.2
    intro s hs
    rw [← Bool.not_eq_true, hcontains]
    exact fun hin => hv (((tiles_split h).covers v.toInt).1 ⟨s, hs, hin⟩)

end

end Span

/-! ## Look-up -/

namespace Key

/-- The integer that a key is, which for an unsigned word may be no signed word. -/
inductive Denotes : Key → Int → Prop
  | int (v : Int64) : Denotes (.int v) v.toInt
  | uint (v : UInt64) : Denotes (.uint v) v.toNat
  | text {s : String} {v : Int64} (h : Decimal.Spells s.toList v.toInt) : Denotes (.text s) v.toInt
  | bytes {s : String} {v : Int64} (h : Decimal.Spells s.toList v.toInt) :
      Denotes (.bytes (Utf8.encode s)) v.toInt

/-- A key is read as its integer, except that an unsigned word past the signed ones is read as a
negative one. -/
theorem Denotes.number {k : Key} {n : Int} (h : k.Denotes n) :
    ∃ v : Int64, k.number = .ok v ∧ (v.toInt = n ∨ v.toInt < 0 ∧ 2 ^ 63 ≤ n) := by
  cases h with
  | int v => exact ⟨v, rfl, .inl rfl⟩
  | uint v =>
    refine ⟨v.toInt64, rfl, ?_⟩
    by_cases hv : v.toNat < 2 ^ 63
    · exact .inl (toInt_toInt64_of_lt hv)
    · exact .inr ⟨toInt_toInt64_of_le (Nat.le_of_not_lt hv), by omega⟩
  | text h => exact ⟨_, (Holds.text h).number, .inl rfl⟩
  | bytes h => exact ⟨_, (Holds.bytes h).number, .inl rfl⟩

end Key

namespace Ranges

theorem find_split_of_number {count width : Int64} (h : Span.split count width ≠ [])
    {keys : List Key} {v : Int64} (hv : Key.numberOfList keys = .ok v) :
    find ⟨Span.split count width⟩ keys =
      if 0 ≤ v.toInt ∧ v.toInt < count.toInt * width.toInt then .ok (v.toInt / width.toInt)
        else .error .outOfRange := by
  have hempty : (Span.split count width).isEmpty = false := by simpa using h
  have hindex := Span.findIdx?_split h v
  unfold find
  rw [hempty, hv]
  by_cases hin : 0 ≤ v.toInt ∧ v.toInt < count.toInt * width.toInt
  · rw [if_pos hin] at hindex
    have hquotient := Int.toNat_of_nonneg ((Span.quotient_lt_iff h v.toInt).2 hin).1
    rw [if_pos hin, ← hquotient]
    simp [bind, Except.bind, hindex]
  · rw [if_neg hin] at hindex
    rw [if_neg hin]
    simp [bind, Except.bind, hindex]

/-- **Look-up in equal ranges is division.** There is a division exactly if the number of keys is
positive and within the signed words. Then it is computed without wrapping and tiles the keys from
0, an integer is found at its quotient by the width if it is one of them and nowhere else, and an
unsigned word that wraps to a negative one is in no range. -/
theorem find_split (count width : Int64) :
    (Span.split count width ≠ [] ↔
      0 < count.toInt ∧ 0 < width.toInt ∧ count.toInt * width.toInt < 2 ^ 63) ∧
    (Span.split count width ≠ [] →
      (∀ i : Nat, (i : Int) < count.toInt → Span.Exact i width) ∧
      Span.Tiles (Span.split count width) count.toInt width.toInt ∧
      (∀ {k : Key} {n : Int}, k.Denotes n → find ⟨Span.split count width⟩ [k] =
        if 0 ≤ n ∧ n < count.toInt * width.toInt then .ok (n / width.toInt)
          else .error .outOfRange) ∧
      ∀ v : UInt64, v.toInt64.toInt < 0 →
        ∀ s ∈ Span.split count width, s.contains v.toInt64 = false) := by
  refine ⟨Span.split_ne_nil_iff, fun h => ⟨fun i => Span.exact_of_lt h, Span.tiles_split h, ?_, ?_⟩⟩
  · intro k n hk
    obtain ⟨-, -, hsize⟩ := Span.split_ne_nil_iff.1 h
    obtain ⟨v, hv, hvn⟩ := hk.number
    have hlist : Key.numberOfList [k] = .ok v := hv
    rw [find_split_of_number h hlist]
    rcases hvn with rfl | ⟨hneg, hlarge⟩
    · rfl
    · -- Neither the wrapped word nor the integer itself is a key of the space.
      rw [if_neg (by omega), if_neg (by omega)]
  · intro v hneg s hs
    have hindex := Span.findIdx?_split h v.toInt64
    rw [if_neg (by omega)] at hindex
    exact List.findIdx?_eq_none_iff.1 hindex s hs

/-- Three ranges that leave out only the largest word: the last key, and a word read as -1. -/
theorem find_split_limit :
    let spans := Span.split 3 3074457345618258602
    spans ≠ [] ∧ spans.length = 3 ∧
      find ⟨spans⟩ [.text "+9223372036854775805"] = .ok 2 ∧
      find ⟨spans⟩ [.uint 18446744073709551615] = .error .outOfRange ∧
      ∀ s ∈ spans, s.contains (-1) = false := by
  intro spans
  obtain ⟨hnonempty, h⟩ := find_split 3 3074457345618258602
  have hspans : spans ≠ [] := hnonempty.2 (by decide)
  obtain ⟨-, htiles, hfind, hwrapped⟩ := h hspans
  have hlast : Key.Denotes (.text "+9223372036854775805") 9223372036854775805 :=
    .text (s := "+9223372036854775805") (v := 9223372036854775805) (.plus (by decide) (by decide))
  refine ⟨hspans, ?_, hfind hlast, hfind (.uint 18446744073709551615), ?_⟩
  · exact Int.ofNat_inj.1 htiles.length
  · exact hwrapped 18446744073709551615 (by decide)

end Ranges

end ReplicaRouter
