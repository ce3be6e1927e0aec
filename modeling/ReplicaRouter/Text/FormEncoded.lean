import ReplicaRouter.Text.Utf8

/-! # Form encoding

A text as the value of a query parameter: letters, digits and `*`, `-`, `.`, `_` stand for
themselves, a space is written `+`, and every other byte of the UTF-8 form is written `%` and two
upper-case hexadecimal digits.
-/

namespace ReplicaRouter.FormEncoded

/-- The hexadecimal digit of a number below 16, letters in upper case. -/
def hexDigit (n : Nat) : Char :=
  if n < 10 then Char.ofNat (48 + n) else Char.ofNat (55 + n)

/-- Whether the byte of this value stands for itself. -/
def isPlain (n : Nat) : Bool :=
  (48 ≤ n && n ≤ 57) || (65 ≤ n && n ≤ 90) || (97 ≤ n && n ≤ 122)
    || n = 42 || n = 45 || n = 46 || n = 95

/-- One byte as written. -/
def encodeByte (b : UInt8) : List Char :=
  let n := b.toNat
  if isPlain n then [Char.ofNat n]
  else if n = 32 then ['+']
  else ['%', hexDigit (n / 16), hexDigit (n % 16)]

/-- A text as written in a query. -/
def encode (s : String) : List Char :=
  (Utf8.encode s).flatMap encodeByte

end ReplicaRouter.FormEncoded
