import ReplicaRouter.Generator

/-! # Weighted rotation

A queue of replica places walked in a circle, in which each place stands in proportion to its
weight.

* `Rotation.commonDivisor` is the largest number that divides every weight.
* `Rotation.ofWeights` repeats each place by its weight over that divisor and swaps entries about by
  drawn numbers.
* `Rotation.next?` gives the place at the cursor and moves on.
-/

namespace ReplicaRouter

/-- A circle of places and where the next pick is made. -/
structure Rotation where
  queue : List Nat := []
  cursor : Nat := 0
deriving Repr, DecidableEq

namespace Rotation

/-- The largest number from 2 to the bound that divides every weight, or 1. -/
def divisorUpTo (weights : List Nat) : Nat → Nat
  | 0 => 1
  | 1 => 1
  | c + 1 => if weights.all (· % (c + 1) == 0) then c + 1 else divisorUpTo weights c

/-- The largest number that divides every weight, sought downward from the least of them. It is 1
when there are no weights or one of them is zero. -/
def commonDivisor (weights : List Nat) : Nat :=
  match weights.min? with
  | none => 1
  | some least => divisorUpTo weights least

/-- Each place repeated by its weight over the common divisor, in order. -/
def blocks (weights : List Nat) : List Nat :=
  let g := commonDivisor weights
  weights.zipIdx.flatMap fun (w, i) => List.replicate (w / g) i

/-- A number of swaps: each exchanges a drawn entry with the one at the queue's length modulo the
entry's place counted from 1. This is a fixed rule, not a uniform shuffle. -/
def swaps {n : Nat} (draw : 0 < n → Generator → Fin n × Generator) :
    Nat → Vector Nat n → Generator → Vector Nat n × Generator
  | 0, q, g => (q, g)
  | k + 1, q, g =>
    if h : 0 < n then
      let (x, g) := draw h g
      have other_lt : n % (x.val + 1) < n :=
        Nat.lt_of_lt_of_le (Nat.mod_lt n (Nat.succ_pos x.val)) x.isLt
      swaps draw k (q.swap x.val (n % (x.val + 1)) x.isLt other_lt) g
    else (q, g)

/-- The queue of several weights has as many swaps as entries, that of one weight or none has
none. -/
def mixed (weights : List Nat) (g : Generator) : List Nat × Generator :=
  let q := blocks weights
  if weights.length > 1 then
    let (v, g) := swaps (Generator.below q.length) q.length ⟨q.toArray, rfl⟩ g
    (v.toList, g)
  else (q, g)

/-- The rotation of a list of weights, and the generator after its draws. -/
def ofWeights (weights : List Nat) (g : Generator) : Rotation × Generator :=
  let (queue, g) := mixed weights g
  ({ queue }, g)

/-- The place at the cursor, and the rotation moved on. The cursor of a single entry stays. -/
def next? (r : Rotation) : Option (Nat × Rotation) :=
  match r.queue with
  | [] => none
  | [i] => some (i, r)
  | queue =>
    let place := r.cursor % queue.length
    queue[place]?.map fun i => (i, { r with cursor := (place + 1) % queue.length })

end Rotation

end ReplicaRouter
