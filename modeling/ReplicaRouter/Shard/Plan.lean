import ReplicaRouter.Shard.Strategy

/-! # Sharding plans

The strategies of all tables.

* `Plan.ofRules` takes the rules in order: the first that fails fails the plan, one of an unknown
  strategy is passed over, and of several for one table the first stands.
* `Plan.tableName` writes the physical name of a table for a list of keys.
-/

namespace ReplicaRouter

/-- The logical name of a table. -/
structure TableName where
  db : String
  table : String
deriving Repr, DecidableEq

namespace TableName

/-- The name with its database. -/
def qualified (t : TableName) : String := t.db ++ "." ++ t.table

/-- The order by database, then by table. -/
def le (s t : TableName) : Bool :=
  s.db < t.db || (s.db == t.db && s.table ≤ t.table)

end TableName

/-- The strategies of the tables that have one. -/
structure Plan where
  entries : List (TableName × Strategy) := []
deriving Repr, DecidableEq

namespace Plan

/-- The strategy of a table. -/
def find? (p : Plan) (t : TableName) : Option Strategy := p.entries.lookup t

/-- Gives a table a strategy unless it has one. -/
def add (p : Plan) (t : TableName) (s : Strategy) : Plan :=
  if (p.find? t).isSome then p else ⟨p.entries ++ [(t, s)]⟩

/-- A table keeps the strategy it was given first. -/
theorem find?_add (p : Plan) (t u : TableName) (s : Strategy) :
    (p.add t s).find? u = if u = t then (p.find? t).or (some s) else p.find? u := by
  unfold add
  split
  · rename_i h
    obtain ⟨x, hx⟩ := Option.isSome_iff_exists.1 h
    by_cases hu : u = t
    · subst hu
      rw [if_pos rfl, hx, Option.some_or]
    · rw [if_neg hu]
  · rename_i h
    have hn : p.entries.lookup t = none := Option.not_isSome_iff_eq_none.1 h
    simp only [find?, List.lookup_append]
    by_cases hu : u = t
    · subst hu
      rw [if_pos rfl, hn, List.lookup_cons_self]
    · have hb : (u == t) = false := beq_eq_false_iff_ne.2 hu
      rw [if_neg hu, List.lookup_cons, hb, List.lookup_nil, Option.or_none]

/-- Takes one more rule into the plan. -/
def addRule (p : Plan) (r : ShardRule) : Except RouterError Plan :=
  (Strategy.ofRule r).map fun
    | some s => p.add ⟨r.db, r.table⟩ s
    | none => p

/-- The plan of a list of rules. -/
def ofRules (rules : List ShardRule) : Except RouterError Plan :=
  rules.foldlM addRule {}

/-- The entries in the order of their tables. -/
def sorted (p : Plan) : List (TableName × Strategy) :=
  p.entries.mergeSort fun (s, _) (t, _) => s.le t

/-- The physical name of a table: its own, and the number its strategy gives, if it has one. -/
def tableName (p : Plan) (offset : Int) (t : TableName) (keys : List Key) :
    Except LookupError String :=
  match p.find? t with
  | none => .ok t.qualified
  | some s => (s.find offset keys).map fun i => t.qualified ++ "_" ++ Decimal.ofInt i

end Plan

end ReplicaRouter
