/-! # JSON documents

The tree of a JSON text. A number keeps its spelling, since `1`, `1.0` and `-0` are told apart by
whoever reads it. A string keeps its text, or nothing when its escapes name half a surrogate pair:
such a string is well formed and yet no text. An object keeps its members in order, repeated names
included.
-/

namespace ReplicaRouter

inductive Json
  | null
  | bool (b : Bool)
  | number (spelling : String)
  | string (text : Option String)
  | array (items : List Json)
  | object (members : List (Option String × Json))
deriving Repr

namespace Json

/-- The string of a text. -/
def ofText (s : String) : Json := .string (some s)

/-- The object of named values. -/
def ofFields (fields : List (String × Json)) : Json :=
  .object (fields.map fun (name, value) => (some name, value))

/-- The text of a string. -/
def text? : Json → Option String
  | .string s => s
  | _ => none

/-- The items of an array. -/
def items? : Json → Option (List Json)
  | .array xs => some xs
  | _ => none

end Json

end ReplicaRouter
