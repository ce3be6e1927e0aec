import Mathlib.Data.List.Fold
import Mathlib.Data.List.Perm.Subperm
import ReplicaRouter.Proofs.Rotation.Proportions

/-!
# Reduced weights

Positive weights are divided by their greatest common divisor, which is what a fold of Euclid's
algorithm over them gives (`commonDivisor_eq_foldl`), so the quotients have no common divisor left
(`foldl_gcd_reduced`). Any list of places in the proportion of the weights holds each as often as
its quotient, times one factor (`count_of_proportional`). So it holds the dispatch queue, which is
the shortest such list (`queue_subperm`).
-/

namespace ReplicaRouter.Rotation

/-! ## The divisor -/

theorem foldl_gcd_eq (weights : List Nat) :
    weights.foldl Nat.gcd 0 = weights.foldr Nat.gcd 0 := List.foldl_eq_foldr

theorem commonDivisor_eq_foldl {weights : List Nat} (hne : weights ≠ [])
    (hpos : ∀ w ∈ weights, 0 < w) : commonDivisor weights = weights.foldl Nat.gcd 0 := by
  rw [foldl_gcd_eq, commonDivisor_eq hne hpos]

/-- Below a weight of zero there is nothing to search. -/
theorem commonDivisor_eq_one {weights : List Nat} (h : weights = [] ∨ 0 ∈ weights) :
    commonDivisor weights = 1 := by
  rcases h with rfl | hzero
  · rfl
  · have hmin : weights.min? = some 0 :=
      List.min?_eq_some_iff.2 ⟨hzero, fun w _ => Nat.zero_le w⟩
    rw [commonDivisor, hmin]
    rfl

theorem scaled_reduced {weights : List Nat} (hpos : ∀ w ∈ weights, 0 < w) :
    (weights.map (· / commonDivisor weights)).map (commonDivisor weights * ·) = weights := by
  have hback : ∀ w ∈ weights, commonDivisor weights * (w / commonDivisor weights) = w :=
    fun w hw => Nat.mul_div_cancel' (commonDivisor_dvd hpos hw)
  rw [List.map_map]
  exact (List.map_congr_left hback).trans (List.map_id weights)

/-- What divided all the quotients would be a factor more of the greatest common divisor. -/
theorem foldl_gcd_reduced {weights : List Nat} (hne : weights ≠ [])
    (hpos : ∀ w ∈ weights, 0 < w) :
    (weights.map (· / commonDivisor weights)).foldl Nat.gcd 0 = 1 := by
  rw [foldl_gcd_eq]
  apply Nat.eq_of_mul_eq_mul_left (commonDivisor_pos weights)
  rw [← foldr_gcd_scaled, scaled_reduced hpos, Nat.mul_one, commonDivisor_eq hne hpos]

/-! ## Lists in the same proportion -/

/-- The greatest common divisors are in the ratio of the weights, too. -/
theorem Proportional.foldr_gcd {v w : List Nat} (h : Proportional v w) (i : Nat) :
    v.getD i 0 * w.foldr Nat.gcd 0 = w.getD i 0 * v.foldr Nat.gcd 0 := by
  rw [← foldr_gcd_scaled, ← foldr_gcd_scaled, h.scaled_eq i]

/-- How often each of the first places stands in a list. -/
def counts (n : Nat) (q : List Nat) : List Nat := (List.range n).map q.count

theorem length_counts (n : Nat) (q : List Nat) : (counts n q).length = n := by
  rw [counts, List.length_map, List.length_range]

theorem getD_counts {n i : Nat} (hi : i < n) (q : List Nat) :
    (counts n q).getD i 0 = q.count i := by
  simp [counts, hi]

theorem proportional_counts {weights q : List Nat}
    (h : ∀ i (hi : i < weights.length) j (hj : j < weights.length),
      q.count i * weights[j] = q.count j * weights[i]) :
    Proportional (counts weights.length q) weights := by
  have hlength := length_counts weights.length q
  have hpast : ∀ k, ¬ k < weights.length →
      (counts weights.length q).getD k 0 = 0 ∧ weights.getD k 0 = 0 := fun k hk =>
    ⟨List.getD_eq_default _ _ (by omega), List.getD_eq_default _ _ (by omega)⟩
  refine ⟨hlength, fun i j => ?_⟩
  by_cases hi : i < weights.length
  · by_cases hj : j < weights.length
    · rw [getD_counts hi, getD_counts hj, List.getD_eq_getElem _ _ hi, List.getD_eq_getElem _ _ hj]
      exact h i hi j hj
    · rw [(hpast j hj).1, (hpast j hj).2, Nat.mul_zero, Nat.zero_mul]
  · rw [(hpast i hi).1, (hpast i hi).2, Nat.mul_zero, Nat.zero_mul]

section
variable {weights : List Nat} (hpos : ∀ w ∈ weights, 0 < w) {q : List Nat}
  (h : ∀ i (hi : i < weights.length) j (hj : j < weights.length),
    q.count i * weights[j] = q.count j * weights[i])
include hpos h

/-- Every place stands there as often as its quotient, times the common divisor of the counts. -/
theorem count_of_proportional {i : Nat} (hi : i < weights.length) :
    q.count i = weights[i] / commonDivisor weights *
      (counts weights.length q).foldr Nat.gcd 0 := by
  have hmem := List.getElem_mem hi
  have hratio := (proportional_counts h).foldr_gcd i
  rw [getD_counts hi, List.getD_eq_getElem _ _ hi,
    ← commonDivisor_eq (List.ne_nil_of_mem hmem) hpos] at hratio
  apply Nat.eq_of_mul_eq_mul_right (commonDivisor_pos weights)
  rw [hratio, Nat.mul_right_comm, Nat.div_mul_cancel (commonDivisor_dvd hpos hmem)]

/-- A list that names any place in the proportion of the weights holds the queue. -/
theorem queue_subperm (hplace : ∃ i ∈ q, i < weights.length) (g : Generator) :
    (ofWeights weights g).1.queue.Subperm q := by
  have hfactor : 0 < (counts weights.length q).foldr Nat.gcd 0 := by
    obtain ⟨i, hmem, hi⟩ := hplace
    have hcount := List.count_pos_iff.2 hmem
    rw [count_of_proportional hpos h hi] at hcount
    exact Nat.pos_of_mul_pos_left hcount
  apply List.subperm_ext_iff.2
  intro i hmem
  have hi := lt_of_mem_queue hmem
  rw [count_queue, List.getD_eq_getElem _ _ hi, count_of_proportional hpos h hi]
  exact Nat.le_mul_of_pos_right _ hfactor

end

/-- **The search down from the least weight finds the greatest common divisor.** Of positive weights
it divides each, and whatever divides each divides it: it is the fold of Euclid's algorithm. So
nothing divides all the quotients, and no list that serves the places in the proportion of the
weights is shorter than the queue. With no weights or one of zero it is 1, and no quotient is ever
by zero. -/
theorem commonDivisor_greatest (weights : List Nat) :
    (weights ≠ [] → (∀ w ∈ weights, 0 < w) →
      (∀ w ∈ weights, commonDivisor weights ∣ w) ∧
      (∀ d, (∀ w ∈ weights, d ∣ w) → d ∣ commonDivisor weights) ∧
      commonDivisor weights = weights.foldl Nat.gcd 0 ∧
      (weights.map (· / commonDivisor weights)).foldl Nat.gcd 0 = 1 ∧
      ∀ (g : Generator) (q : List Nat), (∃ i ∈ q, i < weights.length) →
        (∀ i (hi : i < weights.length) j (hj : j < weights.length),
          q.count i * weights[j] = q.count j * weights[i]) →
        (ofWeights weights g).1.queue.length ≤ q.length) ∧
    (weights = [] ∨ 0 ∈ weights → commonDivisor weights = 1) ∧
    0 < commonDivisor weights := by
  refine ⟨fun hne hpos => ⟨fun w => commonDivisor_dvd hpos, fun d hd => ?_,
    commonDivisor_eq_foldl hne hpos, foldl_gcd_reduced hne hpos, fun g q hplace h => ?_⟩,
    commonDivisor_eq_one, commonDivisor_pos weights⟩
  · rw [commonDivisor_eq hne hpos]
    exact dvd_foldr_gcd.2 hd
  · exact (queue_subperm hpos h hplace g).length_le

/-- Weights of 12, 18 and 30 are reduced to 2, 3 and 5, and two laps of those are no shorter than
the queue. -/
theorem commonDivisor_greatest_reduced :
    let weights := [12, 18, 30]
    let laps := [0, 0, 1, 1, 1, 2, 2, 2, 2, 2, 0, 0, 1, 1, 1, 2, 2, 2, 2, 2]
    weights ≠ [] ∧ (∀ w ∈ weights, 0 < w) ∧ commonDivisor weights = 6 ∧
      (weights.map (· / commonDivisor weights)).foldl Nat.gcd 0 = 1 ∧
      (ofWeights weights ⟨42⟩).1.queue.length ≤ laps.length ∧
      commonDivisor [12, 0, 30] = 1 := by
  intro weights laps
  have hne : weights ≠ [] := by decide
  have hpos : ∀ w ∈ weights, 0 < w := by decide
  obtain ⟨-, -, hgcd, hreduced, hshortest⟩ := (commonDivisor_greatest weights).1 hne hpos
  obtain ⟨-, hzero, -⟩ := commonDivisor_greatest [12, 0, 30]
  refine ⟨hne, hpos, hgcd, hreduced, ?_, hzero (.inr (by decide))⟩
  exact hshortest ⟨42⟩ laps ⟨0, by decide, by decide⟩ (by decide)

end ReplicaRouter.Rotation
