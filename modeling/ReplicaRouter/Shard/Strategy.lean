import ReplicaRouter.Settings.Basic
import ReplicaRouter.Shard.Calendar
import ReplicaRouter.Shard.Modulo
import ReplicaRouter.Shard.Ranges

/-! # Sharding strategies

* `StrategyKind.ofTag?` knows the strategies by name.
* `Strategy.ofRule` builds the strategy of a rule, nothing for a name it does not know.
* `Strategy.find` gives the table number of a list of keys.
-/

namespace ReplicaRouter

/-- The kinds of strategy. -/
inductive StrategyKind
  | modulo
  | ranges
  | calendar (part : CalendarPart)
deriving Repr, DecidableEq

/-- The kind of a name. -/
def StrategyKind.ofTag? : String → Option StrategyKind
  | "mod" => some .modulo
  | "range" => some .ranges
  | "date_day" => some (.calendar .day)
  | "date_month" => some (.calendar .month)
  | "date_year" => some (.calendar .year)
  | _ => none

/-- A way to number the tables by keys. -/
inductive Strategy
  | modulo (m : Modulo)
  | ranges (r : Ranges)
  | calendar (part : CalendarPart)
deriving Repr, DecidableEq

namespace Strategy

/-- The table number of a list of keys, with dates read at a local offset. -/
def find (offset : Int) (keys : List Key) : Strategy → Except LookupError Int
  | .modulo m => m.find keys
  | .ranges r => r.find keys
  | .calendar part => part.find offset keys

/-- The strategy of a rule. -/
def ofRule (r : ShardRule) : Except RouterError (Option Strategy) :=
  match StrategyKind.ofTag? r.tag with
  | none => .ok none
  | some .modulo =>
    if r.modulus ≤ 0 then .error (.invalidRule r.db r.table .modulus)
    else .ok (some (.modulo ⟨r.modulus.toUInt64⟩))
  | some .ranges =>
    let spans := Span.split r.ranges r.rangeWidth
    if spans.isEmpty then .error (.invalidRule r.db r.table .ranges)
    else .ok (some (.ranges ⟨spans⟩))
  | some (.calendar part) => .ok (some (.calendar part))

end Strategy

end ReplicaRouter
