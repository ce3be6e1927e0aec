import ReplicaRouter.Shard.Key

/-! # Sharding by key range

* `Span` is a closed interval of keys, `Span.split` the equal division of a key space.
* `Ranges.find` gives the first range that holds the key.
* `Ranges.startsAt` and `Ranges.stopsAt` tell whether a key is the first or last of a range.
-/

namespace ReplicaRouter

/-- The keys from `first` to `last`, both included. -/
structure Span where
  first : Int64
  last : Int64
deriving Repr, DecidableEq

namespace Span

/-- Whether the key lies in the span. -/
def contains (s : Span) (v : Int64) : Bool :=
  s.first ≤ v && v ≤ s.last

/-- The division of the keys from 0 to `count * width - 1` into `count` spans of `width` keys each.
There is none if either number is not positive or their product is no signed word. A list has no
largest length here; an array of `2 ^ 59` spans of two words would be past any allocation. -/
def split (count width : Int64) : List Span :=
  if count ≤ 0 ∨ width ≤ 0 ∨ 0x8000000000000000 ≤ count.toInt * width.toInt then []
  else (List.range count.toInt.toNat).map fun i =>
    let i := Int64.ofNat i
    { first := i * width, last := (i + 1) * width - 1 }

end Span

/-- The tables are numbered by the place of the range that holds the key. -/
structure Ranges where
  spans : List Span
deriving Repr, DecidableEq

namespace Ranges

/-- The place of the first span that holds the key of the list. -/
def find (r : Ranges) (keys : List Key) : Except LookupError Int :=
  if r.spans.isEmpty then .error .noPartitions
  else do
    let v ← Key.numberOfList keys
    match r.spans.findIdx? (·.contains v) with
    | some i => .ok i
    | none => .error .outOfRange

/-- Whether the key is the first of the span at this place. -/
def startsAt (r : Ranges) (key : Key) (index : Nat) : Except LookupError Bool :=
  match r.spans[index]? with
  | none => .error .outOfRange
  | some s => key.number.map (s.first == ·)

/-- Whether the key is the last of the span at this place. -/
def stopsAt (r : Ranges) (key : Key) (index : Nat) : Except LookupError Bool :=
  match r.spans[index]? with
  | none => .error .outOfRange
  | some s => key.number.map (s.last == ·)

end Ranges

end ReplicaRouter
