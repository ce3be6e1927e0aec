import ReplicaRouter.Json.Basic

/-! # Writing JSON

The compact text of a document: no blanks, members in order, and in strings an escape only where the
grammar wants one.
-/

namespace ReplicaRouter.Json

/-- The hexadecimal digit of a number below 16, letters in lower case. -/
def hexDigit (n : Nat) : Char :=
  if n < 10 then Char.ofNat (48 + n) else Char.ofNat (87 + n)

/-- One character of a string as written. -/
def encodeChar (c : Char) : List Char :=
  match c with
  | '"' => ['\\', '"']
  | '\\' => ['\\', '\\']
  | '\x08' => ['\\', 'b']
  | '\x0c' => ['\\', 'f']
  | '\n' => ['\\', 'n']
  | '\r' => ['\\', 'r']
  | '\t' => ['\\', 't']
  | c =>
    if c.toNat < 0x20 then
      ['\\', 'u', '0', '0', hexDigit (c.toNat / 16), hexDigit (c.toNat % 16)]
    else [c]

/-- A string as written. One that is no text is written as half a surrogate pair. -/
def encodeString : Option String → List Char
  | some s => '"' :: s.toList.flatMap encodeChar ++ ['"']
  | none => ['"', '\\', 'u', 'd', '8', '0', '0', '"']

mutual

/-- A document as written. -/
def encode : Json → List Char
  | .null => ['n', 'u', 'l', 'l']
  | .bool true => ['t', 'r', 'u', 'e']
  | .bool false => ['f', 'a', 'l', 's', 'e']
  | .number spelling => spelling.toList
  | .string text => encodeString text
  | .array [] => ['[', ']']
  | .array (x :: xs) => '[' :: encode x ++ encodeItems xs
  | .object [] => ['\x7b', '\x7d']
  | .object ((name, x) :: ms) =>
    '\x7b' :: encodeString name ++ ':' :: encode x ++ encodeMembers ms

/-- The items after the first, and the closing bracket. -/
def encodeItems : List Json → List Char
  | [] => [']']
  | x :: xs => ',' :: encode x ++ encodeItems xs

/-- The members after the first, and the closing brace. -/
def encodeMembers : List (Option String × Json) → List Char
  | [] => ['\x7d']
  | (name, x) :: ms => ',' :: encodeString name ++ ':' :: encode x ++ encodeMembers ms

end

/-- The text of a document. -/
def render (j : Json) : String :=
  String.ofList j.encode

end ReplicaRouter.Json
