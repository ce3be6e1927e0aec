import ReplicaRouter.Text.Printable

/-! # Quoted text

A text in double quotes, as it appears inside a message. Quotes and backslashes get a backslash,
the common controls their letter, and any other character that does not print its code point in
lower-case hexadecimal between braces.
-/

namespace ReplicaRouter.Quoted

/-- One character as written between the quotes. -/
def encodeChar (c : Char) : List Char :=
  match c with
  | '"' => ['\\', '"']
  | '\\' => ['\\', '\\']
  | '\n' => ['\\', 'n']
  | '\r' => ['\\', 'r']
  | '\t' => ['\\', 't']
  | '\x00' => ['\\', '0']
  | c =>
    if Printable.isPrintable c then [c]
    else ['\\', 'u', '\x7b'] ++ Nat.toDigits 16 c.toNat ++ ['\x7d']

/-- A text in quotes. -/
def quote (s : String) : String :=
  String.ofList ('"' :: s.toList.flatMap encodeChar ++ ['"'])

end ReplicaRouter.Quoted
