/-! # Pseudo-random generator

A 64-bit generator: the state advances by a constant, and an output folds the 128-bit product of the
state with a masked copy of itself.

* `Generator.next` draws a word.
* `Generator.below` draws a number below a bound without bias, by the type of its result.
-/

namespace ReplicaRouter

structure Generator where
  state : UInt64
deriving Repr, DecidableEq

namespace Generator

def increment : UInt64 := 0x2d358dccaa6c78a5

def mask : UInt64 := 0x8bb84b93962eacc9

/-- A word, and the generator after it. -/
def next (g : Generator) : UInt64 × Generator :=
  let s := g.state + increment
  let t := s.toNat * (s ^^^ mask).toNat
  (UInt64.ofNat (t % UInt64.size) ^^^ UInt64.ofNat (t / UInt64.size), ⟨s⟩)

/-- A word scaled from `[0, 2 ^ 64)` down to `[0, n)`. -/
def scale (n : Nat) (h : 0 < n) (r : UInt64) : Fin n :=
  ⟨r.toNat * n / UInt64.size, by
    rw [Nat.div_lt_iff_lt_mul (by decide), Nat.mul_comm]
    exact Nat.mul_lt_mul_of_pos_left r.toNat_lt h⟩

/-- Scales the word just drawn, or draws again while its remainder falls below `threshold`: such
words are the surplus that would favour some results. The state repeats after `2 ^ 64` draws, so
more than those bring nothing new. -/
def scaleUnbiased (n : Nat) (h : 0 < n) (threshold : Nat) :
    Nat → UInt64 → Generator → Fin n × Generator
  | 0, r, g => (scale n h r, g)
  | draws + 1, r, g =>
    if r.toNat * n % UInt64.size < threshold then
      let (r, g) := g.next
      scaleUnbiased n h threshold draws r g
    else (scale n h r, g)

/-- A number below `n`, and the generator after it. -/
def below (n : Nat) (h : 0 < n) (g : Generator) : Fin n × Generator :=
  let (r, g) := g.next
  scaleUnbiased n h ((UInt64.size - n) % n) UInt64.size r g

/-- A generator seeded by the next word. -/
def fork (g : Generator) : Generator × Generator :=
  let (r, g) := g.next
  (⟨r⟩, g)

end Generator

end ReplicaRouter
