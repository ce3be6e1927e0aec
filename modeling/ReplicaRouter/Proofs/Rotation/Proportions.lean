import Mathlib.Data.List.Count
import Mathlib.Data.List.GetD
import ReplicaRouter.Proofs.Rotation

/-!
# Proportional weights

A common factor of the weights is part of their divisor (`commonDivisor_scaled`), so it falls out of
the quotients (`blocks_scaled`), and the swaps see nothing else (`ofWeights_of_blocks`). Weights in
the same ratios, each scaled by the other's first, are the same list (`Proportional.scaled_eq`).
They have the same rotation and draw the same numbers.

The picks give the ratios back: over as many laps of one queue as the other has entries, each place
is picked in proportion to its weight (`count_picks`).
-/

namespace ReplicaRouter.Rotation

/-! ## A common factor -/

theorem foldr_gcd_scaled (c : Nat) (weights : List Nat) :
    (weights.map (c * ·)).foldr Nat.gcd 0 = c * weights.foldr Nat.gcd 0 := by
  induction weights with
  | nil => rfl
  | cons w rest ih => simp only [List.map_cons, List.foldr_cons, ih, Nat.gcd_mul_left]

theorem pos_of_mem_scaled {c : Nat} (hc : 0 < c) {weights : List Nat}
    (hpos : ∀ w ∈ weights, 0 < w) : ∀ w ∈ weights.map (c * ·), 0 < w := by
  intro w hw
  obtain ⟨u, hu, rfl⟩ := List.mem_map.1 hw
  exact Nat.mul_pos hc (hpos u hu)

section
variable {c : Nat} (hc : 0 < c) {weights : List Nat} (hpos : ∀ w ∈ weights, 0 < w)
include hc hpos

theorem commonDivisor_scaled (hne : weights ≠ []) :
    commonDivisor (weights.map (c * ·)) = c * commonDivisor weights := by
  rw [commonDivisor_eq (by simpa using hne) (pos_of_mem_scaled hc hpos),
    commonDivisor_eq hne hpos, foldr_gcd_scaled]

theorem blocks_scaled : blocks (weights.map (c * ·)) = blocks weights := by
  by_cases hne : weights = []
  · subst hne
    rfl
  simp only [blocks, commonDivisor_scaled hc hpos hne, List.zipIdx_map, List.flatMap_map,
    Prod.map_fst, Prod.map_snd, id_eq, Nat.mul_div_mul_left _ _ hc]

end

/-- The swaps see nothing of the weights but their blocks and whether they are several. -/
theorem ofWeights_of_blocks {v w : List Nat} (hblocks : blocks v = blocks w)
    (hlength : v.length = w.length) (g : Generator) : ofWeights v g = ofWeights w g := by
  have hrounds : rounds v = rounds w := by rw [rounds, rounds, hblocks, hlength]
  have hv := swaps?_blocks v g
  rw [hblocks, hrounds, swaps?_blocks w g] at hv
  obtain ⟨hqueue, hstate⟩ := Prod.mk.inj (Option.some.inj hv)
  exact Prod.ext (congrArg (Rotation.mk · 0) hqueue.symm) hstate.symm

theorem ofWeights_scaled {c : Nat} (hc : 0 < c) {weights : List Nat}
    (hpos : ∀ w ∈ weights, 0 < w) (g : Generator) :
    ofWeights (weights.map (c * ·)) g = ofWeights weights g :=
  ofWeights_of_blocks (blocks_scaled hc hpos) (List.length_map _) g

/-! ## Ratios -/

/-- The weights at any two places are in the same ratio in both lists. -/
def Proportional (v w : List Nat) : Prop :=
  v.length = w.length ∧ ∀ i j, v.getD i 0 * w.getD j 0 = v.getD j 0 * w.getD i 0

/-- Each list scaled by one weight of the other. -/
theorem Proportional.scaled_eq {v w : List Nat} (h : Proportional v w) (k : Nat) :
    v.map (w.getD k 0 * ·) = w.map (v.getD k 0 * ·) := by
  apply List.ext_getElem
  · simpa using h.1
  · intro i hv hw
    have hratio := h.2 k i
    rw [List.length_map] at hv hw
    rw [List.getD_eq_getElem _ _ hv, List.getD_eq_getElem _ _ hw] at hratio
    simp only [List.getElem_map]
    rw [hratio, Nat.mul_comm]

theorem ofWeights_congr {v w : List Nat} (hv : ∀ x ∈ v, 0 < x) (hw : ∀ x ∈ w, 0 < x)
    (h : Proportional v w) (g : Generator) : ofWeights v g = ofWeights w g := by
  rcases v with _ | ⟨x, v⟩
  · obtain rfl := List.length_eq_zero_iff.1 h.1.symm
    rfl
  · obtain ⟨y, w, rfl⟩ : ∃ y w', w = y :: w' := List.exists_cons_of_length_pos (h.1 ▸ by simp)
    have hscaled := h.scaled_eq 0
    rw [← ofWeights_scaled (hw y (.head _)) hv g, ← ofWeights_scaled (hv x (.head _)) hw g]
    exact congrArg (ofWeights · g) hscaled

/-! ## Picks -/

/-- A number of picks, one after another. One that fails leaves the rotation as it is. -/
def picks : Nat → Rotation → List (Option Nat)
  | 0, _ => []
  | count + 1, r =>
    match r.next? with
    | none => none :: picks count r
    | some (i, r) => some i :: picks count r

theorem picks_walk {queue : List Nat} (hq : queue ≠ []) : ∀ count j : Nat,
    picks count ⟨queue, j % queue.length⟩ =
      (List.range' j count).map fun j => queue[j % queue.length]?
  | 0, _ => rfl
  | count + 1, j => by
    obtain ⟨i, hi, hnext⟩ := next?_walk hq j
    simp only [picks, hnext, picks_walk hq count (j + 1), List.range'_succ, List.map_cons, hi]

theorem picks_nil (count : Nat) : picks count ⟨[], 0⟩ = List.replicate count none := by
  induction count with
  | zero => rfl
  | succ count ih =>
    rw [picks, List.replicate_succ]
    exact congrArg (none :: ·) ih

/-- The picks of a fresh rotation walk its queue in a circle. -/
theorem picks_ofWeights (weights : List Nat) (g : Generator) (count : Nat) :
    let queue := (ofWeights weights g).1.queue
    picks count (ofWeights weights g).1 =
      (List.range count).map fun j => queue[j % queue.length]? := by
  intro queue
  show picks count ⟨queue, 0⟩ = _
  by_cases hq : queue = []
  · rw [hq, picks_nil]
    simp
  · have hwalk := picks_walk hq count 0
    rwa [Nat.zero_mod, ← List.range_eq_range'] at hwalk

/-- Whole laps pick each place as often as it stands in the queue, times the laps. -/
theorem count_laps (queue : List Nat) (i : Nat) : ∀ laps : Nat,
    ((List.range (laps * queue.length)).map fun j => queue[j % queue.length]?).count (some i) =
      laps * queue.count i
  | 0 => by simp
  | laps + 1 => by
    have hlap : ((List.range queue.length).map fun j =>
        queue[(laps * queue.length + j) % queue.length]?) = queue.map some := by
      apply List.ext_getElem
      · simp
      · intro j hj _
        have hlt : j < queue.length := by simpa using hj
        simp [Nat.mul_add_mod_self_right, Nat.mod_eq_of_lt hlt, hlt]
    rw [Nat.succ_mul, List.range_add, List.map_append, List.count_append, count_laps queue i laps,
      List.map_map]
    rw [show ((fun j => queue[j % queue.length]?) ∘ (laps * queue.length + ·)) =
      fun j => queue[(laps * queue.length + j) % queue.length]? from rfl, hlap,
      List.count_map_of_injective _ _ (Option.some_injective _), Nat.succ_mul]

theorem count_picks (weights : List Nat) (g : Generator) (laps i : Nat) :
    (picks (laps * (ofWeights weights g).1.queue.length) (ofWeights weights g).1).count (some i) =
      laps * (weights.getD i 0 / commonDivisor weights) := by
  rw [picks_ofWeights, count_laps, count_queue]

section
variable {weights : List Nat} (hpos : ∀ w ∈ weights, 0 < w)
include hpos

theorem commonDivisor_mul_share (i : Nat) :
    commonDivisor weights * (weights.getD i 0 / commonDivisor weights) = weights.getD i 0 := by
  apply Nat.mul_div_cancel'
  rcases Nat.lt_or_ge i weights.length with hi | hi
  · rw [List.getD_eq_getElem _ _ hi]
    exact commonDivisor_dvd hpos (List.getElem_mem hi)
  · rw [List.getD_eq_default _ _ hi]
    exact Nat.dvd_zero _

/-- The places with a share are those of the weights. -/
theorem share_pos_iff (i : Nat) :
    0 < weights.getD i 0 / commonDivisor weights ↔ i < weights.length := by
  constructor
  · intro h
    by_contra hi
    rw [List.getD_eq_default _ _ (Nat.le_of_not_lt hi), Nat.zero_div] at h
    exact Nat.lt_irrefl 0 h
  · intro hi
    have hmem := List.getElem_mem hi
    rw [List.getD_eq_getElem _ _ hi, commonDivisor_eq (List.ne_nil_of_mem hmem) hpos]
    exact share_pos hmem (hpos _ hmem)

theorem eq_nil_of_queue (g : Generator) (h : (ofWeights weights g).1.queue = []) :
    weights = [] := by
  have hshare := share_pos_iff hpos 0
  rw [← count_queue weights g, h] at hshare
  exact List.length_eq_zero_iff.1 (Nat.eq_zero_of_not_pos fun hlt => by simpa using hshare.2 hlt)

end

section
variable {v w : List Nat} {g : Generator}
  (h : ∀ count, picks count (ofWeights v g).1 = picks count (ofWeights w g).1)
include h

/-- Without entries the first pick fails. -/
theorem queue_eq_nil_of_picks (hempty : (ofWeights v g).1.queue = []) :
    (ofWeights w g).1.queue = [] := by
  have hfirst := h 1
  rw [picks_ofWeights, picks_ofWeights, hempty] at hfirst
  simpa using hfirst

/-- Laps of either queue, as many as make the same number of picks. -/
theorem shares_of_picks (i : Nat) :
    (ofWeights w g).1.queue.length * (v.getD i 0 / commonDivisor v) =
      (ofWeights v g).1.queue.length * (w.getD i 0 / commonDivisor w) := by
  rw [← count_picks v g, ← count_picks w g, h, Nat.mul_comm]

end

theorem proportional_of_shares {v w : List Nat} (hv : ∀ x ∈ v, 0 < x) (hw : ∀ x ∈ w, 0 < x)
    {m n : Nat} (hm : 0 < m) (hn : 0 < n)
    (h : ∀ i, m * (v.getD i 0 / commonDivisor v) = n * (w.getD i 0 / commonDivisor w)) :
    Proportional v w := by
  constructor
  · have hplaces (i : Nat) : i < v.length ↔ i < w.length := by
      rw [← share_pos_iff hv, ← share_pos_iff hw, ← Nat.mul_pos_iff_of_pos_left hm, h,
        Nat.mul_pos_iff_of_pos_left hn]
    have := hplaces v.length
    have := hplaces w.length
    omega
  · intro i j
    have hcross : (v.getD i 0 / commonDivisor v) * (w.getD j 0 / commonDivisor w) =
        (v.getD j 0 / commonDivisor v) * (w.getD i 0 / commonDivisor w) := by
      apply Nat.eq_of_mul_eq_mul_left hm
      rw [← Nat.mul_assoc, ← Nat.mul_assoc, h, h, Nat.mul_right_comm]
    rw [← commonDivisor_mul_share hv i, ← commonDivisor_mul_share hv j,
      ← commonDivisor_mul_share hw i, ← commonDivisor_mul_share hw j,
      Nat.mul_mul_mul_comm, hcross, Nat.mul_mul_mul_comm]

/-- The picks tell the ratios of the weights. -/
theorem proportional_of_picks {v w : List Nat} (hv : ∀ x ∈ v, 0 < x) (hw : ∀ x ∈ w, 0 < x)
    {g : Generator}
    (h : ∀ count, picks count (ofWeights v g).1 = picks count (ofWeights w g).1) :
    Proportional v w := by
  by_cases hempty : (ofWeights v g).1.queue = []
  · rw [eq_nil_of_queue hv g hempty, eq_nil_of_queue hw g (queue_eq_nil_of_picks h hempty)]
    exact ⟨rfl, fun _ _ => rfl⟩
  · have hempty' : (ofWeights w g).1.queue ≠ [] := fun he =>
      hempty (queue_eq_nil_of_picks (fun count => (h count).symm) he)
    exact proportional_of_shares hv hw (List.length_pos_iff.2 hempty')
      (List.length_pos_iff.2 hempty) (shares_of_picks h)

/-- **Only the ratios of the weights matter.** A common factor changes neither the queue nor the
state of the generator, and so no later pick. The same holds of any weights in the same ratios, and
no other weights are picked from alike. -/
theorem ofWeights_proportional {v w : List Nat} (hv : ∀ x ∈ v, 0 < x) (hw : ∀ x ∈ w, 0 < x)
    (g : Generator) :
    (∀ c, 0 < c → ofWeights (w.map (c * ·)) g = ofWeights w g) ∧
      (Proportional v w → ofWeights v g = ofWeights w g) ∧
      ((∀ count, picks count (ofWeights v g).1 = picks count (ofWeights w g).1) ↔
        Proportional v w) := by
  refine ⟨fun c hc => ofWeights_scaled hc hw g, fun h => ofWeights_congr hv hw h g, ?_⟩
  constructor
  · exact fun h => proportional_of_picks hv hw h
  · intro h count
    rw [ofWeights_congr hv hw h g]

/-- The largest word and its third are picked from as 3 and 1 are, and 2 and 1 are not. -/
theorem ofWeights_proportional_largest :
    (∀ x ∈ [1, 3], 0 < x) ∧ (∀ x ∈ [1, 2], 0 < x) ∧
      ofWeights [1431655765, 4294967295] ⟨7⟩ = ofWeights [1, 3] ⟨7⟩ ∧
      ¬ ∀ count, picks count (ofWeights [1, 2] ⟨7⟩).1 = picks count (ofWeights [1, 3] ⟨7⟩).1 := by
  have hw : ∀ x ∈ [1, 3], 0 < x := by decide
  have hv : ∀ x ∈ [1, 2], 0 < x := by decide
  obtain ⟨hscaled, -, hiff⟩ := ofWeights_proportional hv hw ⟨7⟩
  refine ⟨hw, hv, hscaled 1431655765 (by decide), fun h => ?_⟩
  exact absurd ((hiff.1 h).2 0 1) (by decide)

end ReplicaRouter.Rotation
