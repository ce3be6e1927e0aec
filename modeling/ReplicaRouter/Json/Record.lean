import ReplicaRouter.Decimal
import ReplicaRouter.Json.Basic

/-! # Records in JSON

A record is written as an object of its fields in any order, or as the array of its fields in their
declared order, cut short anywhere.

* `Json.fields?` gives the fields present by name. In an object, names that the record does not know
  are passed over, and a known one may stand only once.
* `Json.field?` reads one of them, or takes the value of a missing field.
* `Json.integer?` and the readers of words take an integer only in its plain spelling.
-/

namespace ReplicaRouter.Json

/-- The fields of a record of these names that a document holds. -/
def fields? (names : List String) : Json → Option (List (String × Json))
  | .array items =>
    if items.length ≤ names.length then some (names.zip items) else none
  | .object members => do
    let named ← members.mapM fun (name, x) => name.map (·, x)
    let known := named.filter fun (name, _) => names.contains name
    if (known.map (·.1)).Nodup then some known else none
  | _ => none

/-- The value of a field, `missing` if it is not there. A field that is there must be readable. -/
def field? {α : Type} (fields : List (String × Json)) (name : String) (read : Json → Option α)
    (missing : α) : Option α :=
  match fields.lookup name with
  | none => some missing
  | some x => read x

/-- The items of an array, each read. -/
def list? {α : Type} (read : Json → Option α) (j : Json) : Option (List α) := do
  (← j.items?).mapM read

/-- The value of digits alone, at least one. -/
def natural? (cs : List Char) : Option Nat :=
  if cs.isEmpty then none
  else cs.foldlM (fun n c => (Decimal.digit? c).map (10 * n + ·)) 0

/-- The integer that a number spells with digits alone, after a minus sign if it is negative. A zero
has no minus sign. -/
def integer? : Json → Option Int
  | .number s =>
    match s.toList with
    | '-' :: ds => do
      let n ← natural? ds
      if n = 0 then none else some (-n)
    | ds => (natural? ds).map Int.ofNat
  | _ => none

/-- An integer within bounds, the upper one excluded. -/
def integerIn? (low high : Int) (j : Json) : Option Int := do
  let n ← j.integer?
  if low ≤ n ∧ n < high then some n else none

/-- An unsigned word of 32 bits. -/
def uint32? (j : Json) : Option UInt32 :=
  (j.integerIn? 0 0x100000000).map fun n => UInt32.ofNat n.toNat

/-- An unsigned word of 64 bits. -/
def uint64? (j : Json) : Option UInt64 :=
  (j.integerIn? 0 0x10000000000000000).map fun n => UInt64.ofNat n.toNat

/-- A signed word of 64 bits. -/
def int64? (j : Json) : Option Int64 :=
  (j.integerIn? (-0x8000000000000000) 0x8000000000000000).map Int64.ofInt

/-- The number of a natural number. -/
def ofNat (n : Nat) : Json := .number (Decimal.ofNat n)

/-- The number of an integer. -/
def ofInt (n : Int) : Json := .number (Decimal.ofInt n)

end ReplicaRouter.Json
