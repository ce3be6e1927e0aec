import Mathlib.Algebra.Order.Ring.Int
import Mathlib.Data.List.Rotate
import ReplicaRouter.Rotation

/-!
# The dispatch queue

* `commonDivisor_eq`: the downward search finds the greatest common divisor of positive weights.
* `count_queue`: each place stands in the queue as often as its weight over the divisor, since the
  blocks do (`count_blocks`) and a swap only permutes (`swaps_perm`).
* `swaps?_toList`: nothing is lost by the bounds that the swaps carry. Made on a queue of which
  nothing is promised (`swaps?`), they never leave it, whatever is drawn.
* `queue_contents`: all of this of a queue, for any weights and any generator.
* `next?_walk`: the pick after `j` picks is the entry at `j` modulo the queue's length.
* `take_drop_walk`: any lap of the queue, wherever it starts, is a rotation of it, so it counts each
  place as the queue does.
-/

namespace ReplicaRouter.Rotation

/-! ## The divisor -/

theorem dvd_foldr_gcd {d : Nat} {weights : List Nat} :
    d ∣ weights.foldr Nat.gcd 0 ↔ ∀ w ∈ weights, d ∣ w := by
  induction weights with
  | nil => simp
  | cons w rest ih => simp [Nat.dvd_gcd_iff, ih]

theorem foldr_gcd_pos {weights : List Nat} {w : Nat} (hw : w ∈ weights) (hpos : 0 < w) :
    0 < weights.foldr Nat.gcd 0 :=
  Nat.pos_of_dvd_of_pos (dvd_foldr_gcd.1 (Nat.dvd_refl _) w hw) hpos

theorem all_mod_iff {weights : List Nat} {d : Nat} :
    weights.all (· % d == 0) = true ↔ d ∣ weights.foldr Nat.gcd 0 := by
  rw [dvd_foldr_gcd]
  simp [Nat.dvd_iff_mod_eq_zero]

/-- A search that starts at the greatest common divisor or above it ends there. -/
theorem divisorUpTo_eq {weights : List Nat} (hpos : 0 < weights.foldr Nat.gcd 0) :
    ∀ c, weights.foldr Nat.gcd 0 ≤ c → divisorUpTo weights c = weights.foldr Nat.gcd 0
  | 0, h => by omega
  | 1, h => by simp only [divisorUpTo]; omega
  | c + 2, h => by
    simp only [divisorUpTo]
    split
    · rename_i hall
      exact Nat.le_antisymm (Nat.le_of_dvd hpos (all_mod_iff.1 hall)) h
    · rename_i hall
      -- The divisor itself would not have been passed over, so it is still below.
      have hne : weights.foldr Nat.gcd 0 ≠ c + 2 := fun he =>
        hall (all_mod_iff.2 (he ▸ Nat.dvd_refl _))
      exact divisorUpTo_eq hpos (c + 1) (by omega)

theorem divisorUpTo_pos (weights : List Nat) : ∀ c, 0 < divisorUpTo weights c
  | 0 => Nat.one_pos
  | 1 => Nat.one_pos
  | c + 2 => by
    simp only [divisorUpTo]
    split
    · exact Nat.succ_pos _
    · exact divisorUpTo_pos weights (c + 1)

theorem commonDivisor_eq {weights : List Nat} (hne : weights ≠ [])
    (hpos : ∀ w ∈ weights, 0 < w) : commonDivisor weights = weights.foldr Nat.gcd 0 := by
  unfold commonDivisor
  split
  · rename_i hmin
    exact absurd (List.min?_eq_none_iff.1 hmin) hne
  · rename_i least hmin
    obtain ⟨hmem, -⟩ := List.min?_eq_some_iff.1 hmin
    have hdvd := dvd_foldr_gcd.1 (Nat.dvd_refl (weights.foldr Nat.gcd 0)) least hmem
    exact divisorUpTo_eq (foldr_gcd_pos hmem (hpos least hmem)) least
      (Nat.le_of_dvd (hpos least hmem) hdvd)

/-- A weight over the divisor is a positive number of entries. -/
theorem share_pos {weights : List Nat} {w : Nat} (hw : w ∈ weights) (hpos : 0 < w) :
    0 < w / weights.foldr Nat.gcd 0 :=
  Nat.div_pos (Nat.le_of_dvd hpos (dvd_foldr_gcd.1 (Nat.dvd_refl _) w hw))
    (foldr_gcd_pos hw hpos)

/-! ## The queue -/

theorem count_flatMap_zipIdx (weights : List Nat) (g start i : Nat) :
    ((weights.zipIdx start).flatMap fun (w, j) => List.replicate (w / g) j).count i =
      if start ≤ i then weights.getD (i - start) 0 / g else 0 := by
  induction weights generalizing start with
  | nil => simp
  | cons w rest ih =>
    simp only [List.zipIdx_cons, List.flatMap_cons, List.count_append, List.count_replicate, ih]
    rcases Nat.lt_trichotomy start i with h | rfl | h
    · rw [if_neg (by simpa using Nat.ne_of_lt h), if_pos (by omega), if_pos (by omega),
        show i - start = i - (start + 1) + 1 by omega, List.getD_cons_succ, Nat.zero_add]
    · rw [if_pos (by simp), if_neg (by omega), if_pos (Nat.le_refl _), Nat.sub_self, Nat.add_zero]
      rfl
    · rw [if_neg (by simpa using Nat.ne_of_gt h), if_neg (by omega), if_neg (by omega)]

theorem count_blocks (weights : List Nat) (i : Nat) :
    (blocks weights).count i = weights.getD i 0 / commonDivisor weights := by
  simpa [blocks] using count_flatMap_zipIdx weights (commonDivisor weights) 0 i

/-- Swaps only permute, whatever is drawn. -/
theorem swaps_perm {n : Nat} (draw : 0 < n → Generator → Fin n × Generator) :
    ∀ (k : Nat) (q : Vector Nat n) (g : Generator), (swaps draw k q g).1.toList.Perm q.toList
  | 0, q, _ => .refl _
  | k + 1, q, g => by
    unfold swaps
    split
    · exact (swaps_perm draw k _ _).trans (Vector.perm_iff_toList_perm.1 (Vector.swap_perm _ _))
    · exact .refl _

/-- The number of swaps: as many as the queue of several weights has entries. -/
def rounds (weights : List Nat) : Nat :=
  if weights.length > 1 then (blocks weights).length else 0

theorem rounds_le (weights : List Nat) : rounds weights ≤ (blocks weights).length := by
  unfold rounds
  split
  · exact Nat.le_refl _
  · exact Nat.zero_le _

theorem mixed_eq (weights : List Nat) (g : Generator) :
    mixed weights g =
      let (v, g) := swaps (Generator.below (blocks weights).length) (rounds weights)
        ⟨(blocks weights).toArray, rfl⟩ g
      (v.toList, g) := by
  unfold mixed rounds
  by_cases h : weights.length > 1
  · simp only [if_pos h]
  · simp only [if_neg h]
    rfl

theorem mixed_perm (weights : List Nat) (g : Generator) :
    (mixed weights g).1.Perm (blocks weights) := by
  rw [mixed_eq]
  exact swaps_perm (Generator.below (blocks weights).length) (rounds weights)
    ⟨(blocks weights).toArray, rfl⟩ g

theorem count_queue (weights : List Nat) (g : Generator) (i : Nat) :
    (ofWeights weights g).1.queue.count i = weights.getD i 0 / commonDivisor weights := by
  rw [← count_blocks]
  exact (mixed_perm weights g).count_eq i

/-- Every entry is the place of a weight. -/
theorem lt_of_mem_queue {weights : List Nat} {g : Generator} {i : Nat}
    (h : i ∈ (ofWeights weights g).1.queue) : i < weights.length := by
  have hcount := count_queue weights g i
  have hpos := List.count_pos_iff.2 h
  rcases Nat.lt_or_ge i weights.length with hi | hi
  · exact hi
  · rw [List.getD_eq_getElem?_getD, List.getElem?_eq_none hi, Option.getD_none,
      Nat.zero_div] at hcount
    omega

theorem length_flatMap_zipIdx (weights : List Nat) (g start : Nat) :
    ((weights.zipIdx start).flatMap fun (w, j) => List.replicate (w / g) j).length =
      (weights.map (· / g)).sum := by
  induction weights generalizing start with
  | nil => rfl
  | cons w rest ih =>
    rw [List.zipIdx_cons, List.flatMap_cons, List.length_append, List.length_replicate, ih,
      List.map_cons, List.sum_cons]

theorem length_blocks (weights : List Nat) :
    (blocks weights).length = (weights.map (· / commonDivisor weights)).sum :=
  length_flatMap_zipIdx weights (commonDivisor weights) 0

theorem commonDivisor_pos (weights : List Nat) : 0 < commonDivisor weights := by
  unfold commonDivisor
  split
  · exact Nat.one_pos
  · exact divisorUpTo_pos weights _

theorem commonDivisor_dvd {weights : List Nat} (hpos : ∀ w ∈ weights, 0 < w) {w : Nat}
    (hw : w ∈ weights) : commonDivisor weights ∣ w := by
  rw [commonDivisor_eq (List.ne_nil_of_mem hw) hpos]
  exact dvd_foldr_gcd.1 (Nat.dvd_refl _) w hw

/-! ## The swaps in bounds -/

/-- The exchange of the entries at two places, if the queue has both. -/
def exchange? (q : List Nat) (i j : Nat) : Option (List Nat) := do
  let a ← q[i]?
  let b ← q[j]?
  return (q.set i b).set j a

/-- The swaps on a queue of which nothing is promised: there is no result if a draw has nothing to
choose from or an exchange names a place outside the queue. -/
def swaps? {n : Nat} (draw : 0 < n → Generator → Fin n × Generator) :
    Nat → List Nat → Generator → Option (List Nat × Generator)
  | 0, q, g => some (q, g)
  | k + 1, q, g =>
    if h : 0 < n then do
      let (x, g) := draw h g
      let q ← exchange? q x.val (n % (x.val + 1))
      swaps? draw k q g
    else none

theorem exchange?_toList {n : Nat} (q : Vector Nat n) {i j : Nat} (hi : i < n) (hj : j < n) :
    exchange? q.toList i j = some (q.swap i j hi hj).toList := by
  have hqi : q.toList[i]? = some q[i] := by simp [hi]
  have hqj : q.toList[j]? = some q[j] := by simp [hj]
  have hswap : (q.swap i j hi hj).toList = (q.toList.set i q[j]).set j q[i] := by
    simp [Vector.swap, Vector.toList]
  rw [exchange?, hqi, hqj, hswap]
  rfl

/-- Swaps no more than entries: a queue with an entry to swap has one to draw. -/
theorem swaps?_toList {n : Nat} (draw : 0 < n → Generator → Fin n × Generator) :
    ∀ (k : Nat) (q : Vector Nat n) (g : Generator), k ≤ n →
      swaps? draw k q.toList g = some ((swaps draw k q g).1.toList, (swaps draw k q g).2)
  | 0, _, _, _ => rfl
  | k + 1, q, g, hk => by
    have hn : 0 < n := by omega
    rcases hd : draw hn g with ⟨x, g'⟩
    have hother : n % (x.val + 1) < n :=
      Nat.lt_of_lt_of_le (Nat.mod_lt n (Nat.succ_pos x.val)) x.isLt
    simp only [swaps?, swaps, dif_pos hn, hd]
    rw [exchange?_toList q x.isLt hother]
    exact swaps?_toList draw k _ g' (by omega)

theorem swaps?_perm {n : Nat} (draw : 0 < n → Generator → Fin n × Generator) {q : List Nat}
    (hq : q.length = n) {k : Nat} (hk : k ≤ n) (g : Generator) :
    ∃ q' g', swaps? draw k q g = some (q', g') ∧ q'.Perm q :=
  ⟨_, _, swaps?_toList draw k ⟨q.toArray, hq⟩ g hk, swaps_perm draw k ⟨q.toArray, hq⟩ g⟩

theorem swaps?_blocks (weights : List Nat) (g : Generator) :
    swaps? (Generator.below (blocks weights).length) (rounds weights) (blocks weights) g =
      some ((ofWeights weights g).1.queue, (ofWeights weights g).2) := by
  have hswaps := swaps?_toList (Generator.below (blocks weights).length) (rounds weights)
    ⟨(blocks weights).toArray, rfl⟩ g (rounds_le weights)
  rw [ofWeights, mixed_eq]
  exact hswaps

/-- **What a dispatch queue holds**, for any weights, zeros and none included. No division is by
zero; no draw is from an empty range and no exchange outside the queue, whatever is drawn; a place
stands in the queue as often as its weight over the divisor and nothing else does. Positive weights
are served in exact proportion. -/
theorem queue_contents (weights : List Nat) (g : Generator) :
    let divisor := commonDivisor weights
    let initial := blocks weights
    let queue := (ofWeights weights g).1.queue
    0 < divisor ∧
      (∀ draw : 0 < initial.length → Generator → Fin initial.length × Generator,
        ∃ q g', swaps? draw (rounds weights) initial g = some (q, g') ∧ q.Perm initial) ∧
      swaps? (Generator.below initial.length) (rounds weights) initial g =
        some (queue, (ofWeights weights g).2) ∧
      (∀ i ∈ queue, i < weights.length) ∧
      (∀ i (hi : i < weights.length), queue.count i = weights[i] / divisor) ∧
      queue.length = (weights.map (· / divisor)).sum ∧
      ((∀ w ∈ weights, 0 < w) → ∀ i (hi : i < weights.length), i ∈ queue ∧
        ∀ j (hj : j < weights.length),
          queue.count i * weights[j] = queue.count j * weights[i]) := by
  intro divisor initial queue
  have hcount : ∀ i (hi : i < weights.length), queue.count i = weights[i] / divisor := by
    intro i hi
    have := count_queue weights g i
    rwa [List.getD_eq_getElem?_getD, List.getElem?_eq_getElem hi, Option.getD_some] at this
  refine ⟨commonDivisor_pos weights, fun draw => swaps?_perm draw rfl (rounds_le weights) g,
    swaps?_blocks weights g, fun i => lt_of_mem_queue, hcount, ?_, fun hpos i hi => ⟨?_, ?_⟩⟩
  · exact (mixed_perm weights g).length_eq.trans (length_blocks weights)
  · have hmem := List.getElem_mem hi
    rw [← List.count_pos_iff, hcount i hi]
    exact Nat.div_pos (Nat.le_of_dvd (hpos _ hmem) (commonDivisor_dvd hpos hmem))
      (commonDivisor_pos weights)
  · intro j hj
    have hdi := commonDivisor_dvd hpos (List.getElem_mem hi)
    have hdj := commonDivisor_dvd hpos (List.getElem_mem hj)
    calc queue.count i * weights[j]
        = weights[i] / divisor * weights[j] := by rw [hcount i hi]
      _ = weights[i] * weights[j] / divisor := Nat.div_mul_right_comm hdi _
      _ = weights[j] * weights[i] / divisor := by rw [Nat.mul_comm]
      _ = weights[j] / divisor * weights[i] := (Nat.div_mul_right_comm hdj _).symm
      _ = queue.count j * weights[i] := by rw [hcount j hj]

/-- Weights of 2, 4 and 6 give six entries: one, two and three. -/
theorem queue_contents_reduced :
    let queue := (ofWeights [2, 4, 6] ⟨42⟩).1.queue
    (∀ w ∈ [2, 4, 6], 0 < w) ∧ queue.length = 6 ∧ 2 ∈ queue ∧
      queue.count 0 = 1 ∧ queue.count 1 = 2 ∧ queue.count 2 = 3 ∧
      queue.count 0 * 6 = queue.count 2 * 2 := by
  intro queue
  have hpos : ∀ w ∈ [2, 4, 6], 0 < w := by decide
  have hdivisor : commonDivisor [2, 4, 6] = 2 := by decide
  obtain ⟨-, -, -, hlt, hcount, hlength, hserved⟩ := queue_contents [2, 4, 6] ⟨42⟩
  rw [hdivisor] at hcount hlength
  obtain ⟨hmem, -⟩ := hserved hpos 2 (by decide)
  obtain ⟨-, hshare⟩ := hserved hpos 0 (by decide)
  have hlast : queue.count 2 = 6 / 2 := hcount 2 (hlt 2 hmem)
  exact ⟨hpos, hlength, hmem, hcount 0 (by decide), hcount 1 (by decide), hlast,
    hshare 2 (by decide)⟩

/-! ## The walk -/

theorem next?_walk {queue : List Nat} (hq : queue ≠ []) (j : Nat) :
    ∃ i, queue[j % queue.length]? = some i ∧
      next? ⟨queue, j % queue.length⟩ = some (i, ⟨queue, (j + 1) % queue.length⟩) := by
  have hlt : j % queue.length < queue.length := Nat.mod_lt j (List.length_pos_iff.2 hq)
  refine ⟨queue[j % queue.length], List.getElem?_eq_getElem hlt, ?_⟩
  rcases queue with _ | ⟨i, _ | ⟨i', rest⟩⟩
  · exact absurd rfl hq
  · simp [next?, Nat.mod_one]
  · simp only [next?, Nat.mod_mod, List.getElem?_eq_getElem hlt, Option.map_some, Nat.mod_add_mod]

/-- A lap of the queue is a rotation of it. -/
theorem take_drop_walk {queue places : List Nat} {k : Nat}
    (h : ∀ j < places.length, places[j]? = queue[j % queue.length]?)
    (hk : k + queue.length ≤ places.length) :
    (places.drop k).take queue.length = queue.rotate k := by
  apply List.ext_getElem?
  intro m
  rcases Nat.lt_or_ge m queue.length with hm | hm
  · rw [List.getElem?_take_of_lt hm, List.getElem?_drop, h _ (by omega), List.getElem?_rotate hm,
      Nat.add_comm]
  · rw [List.getElem?_eq_none (by simp; omega), List.getElem?_eq_none (by simpa using hm)]

theorem count_lap {queue places : List Nat} {k : Nat}
    (h : ∀ j < places.length, places[j]? = queue[j % queue.length]?)
    (hk : k + queue.length ≤ places.length) (i : Nat) :
    ((places.drop k).take queue.length).count i = queue.count i := by
  rw [take_drop_walk h hk]
  exact (queue.rotate_perm k).count_eq i

end ReplicaRouter.Rotation
