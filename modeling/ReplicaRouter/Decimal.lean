/-! # Decimal numerals

Integers written in base ten and read back within a limit.

* `Decimal.ofNat`, `Decimal.ofInt` write without leading zeros; a negative number has one `-`.
* `Decimal.readUnsigned?` reads digits alone. `Decimal.readSigned` admits one sign. Both read from
  the left and stop at the first fault: a character that is no digit, or a value past the limit.
  Leading zeros are free.
-/

namespace ReplicaRouter.Decimal

def ofNat (n : Nat) : String :=
  String.ofList (Nat.toDigits 10 n)

/-- The digits of an integer, after a `-` if it is negative. -/
def ofInt : Int → String
  | .ofNat n => ofNat n
  | .negSucc n => "-" ++ ofNat (n + 1)

/-- Why a text is not a numeral of the wanted range. -/
inductive Fault
  | empty
  | invalidDigit
  | tooLarge
  | tooSmall
deriving Repr, DecidableEq

def Fault.message : Fault → String
  | .empty => "cannot parse integer from empty string"
  | .invalidDigit => "invalid digit found in string"
  | .tooLarge => "number too large to fit in target type"
  | .tooSmall => "number too small to fit in target type"

def digit? (c : Char) : Option Nat :=
  if '0' ≤ c ∧ c ≤ '9' then some (c.toNat - 48) else none

/-- Reads digits after those that made `n`. The first character that is no digit, or that takes the
value past `limit`, ends the reading; the second fault is reported as `past`. -/
def readDigits (limit : Nat) (past : Fault) : Nat → List Char → Except Fault Nat
  | n, [] => .ok n
  | n, c :: rest =>
    match digit? c with
    | none => .error .invalidDigit
    | some d =>
      if 10 * n + d ≤ limit then readDigits limit past (10 * n + d) rest else .error past

/-- A number below `2 ^ 64` written in digits alone, at least one. -/
def readUnsigned? (cs : List Char) : Option UInt64 :=
  if cs.isEmpty then none
  else match readDigits (UInt64.size - 1) .tooLarge 0 cs with
    | .ok n => some (UInt64.ofNat n)
    | .error _ => none

/-- A number in `[-2 ^ 63, 2 ^ 63)` written in digits, at least one, after at most one sign. -/
def readSigned : List Char → Except Fault Int64
  | [] => .error .empty
  | ['+'] => .error .invalidDigit
  | ['-'] => .error .invalidDigit
  | '-' :: rest =>
    (readDigits 0x8000000000000000 .tooSmall 0 rest).map fun n : Nat => Int64.ofInt (-n)
  | '+' :: rest =>
    (readDigits 0x7fffffffffffffff .tooLarge 0 rest).map fun n : Nat => Int64.ofInt n
  | cs => (readDigits 0x7fffffffffffffff .tooLarge 0 cs).map fun n : Nat => Int64.ofInt n

end ReplicaRouter.Decimal
