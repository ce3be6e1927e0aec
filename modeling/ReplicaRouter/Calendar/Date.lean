/-! # Civil dates

The proleptic Gregorian calendar with astronomical years: a date as a day number counted from
1970-01-01, and the date of a day number.

* `Date.toDays` sums whole years, whole months and days.
* `Date.ofDays` splits a day number into 400-year cycles, centuries, four-year cycles and years,
  and the rest into months and days.
-/

namespace ReplicaRouter

/-- A year, a month of it from 1 and a day of that from 1. -/
structure Date where
  year : Int
  month : Nat
  day : Nat
deriving Repr, DecidableEq

namespace Date

/-- Every fourth year has a leap day, of the centuries every fourth. -/
def IsLeap (year : Int) : Prop :=
  year % 4 = 0 ∧ (year % 100 ≠ 0 ∨ year % 400 = 0)

instance (year : Int) : Decidable (IsLeap year) :=
  inferInstanceAs (Decidable (_ ∧ _))

/-- The lengths of the months of a year. -/
def monthLengths (year : Int) : List Nat :=
  [31, if IsLeap year then 29 else 28, 31, 30, 31, 30, 31, 31, 30, 31, 30, 31]

def Valid (d : Date) : Prop :=
  1 ≤ d.month ∧ d.month ≤ 12 ∧ 1 ≤ d.day ∧ d.day ≤ (monthLengths d.year).getD (d.month - 1) 0

instance (d : Date) : Decidable d.Valid :=
  inferInstanceAs (Decidable (_ ∧ _ ∧ _ ∧ _))

/-- The day number of 1970-01-01 counted from 0001-01-01. -/
def epoch : Int := 719162

/-- The number of days from 0001-01-01 to the first day of a year. -/
def daysBeforeYear (year : Int) : Int :=
  let y := year - 1
  365 * y + y / 4 - y / 100 + y / 400

/-- The days of months of the given lengths. -/
def daysIn : List Nat → Nat
  | [] => 0
  | n :: rest => n + daysIn rest

@[simp] theorem daysIn_nil : daysIn [] = 0 := rfl

@[simp] theorem daysIn_cons (n : Nat) (rest : List Nat) :
    daysIn (n :: rest) = n + daysIn rest := rfl

/-- The day number of a date, 0 for 1970-01-01. -/
def toDays (d : Date) : Int :=
  daysBeforeYear d.year - epoch
    + (daysIn ((monthLengths d.year).take (d.month - 1)) : Nat) + ((d.day : Int) - 1)

/-- The month (from 0) and the day of it (from 0) of a day counted from 0 through months of the
given lengths. -/
def locate : List Nat → Nat → Nat × Nat
  | [], d => (0, d)
  | n :: rest, d =>
    if d < n then (0, d)
    else
      let (m, d') := locate rest (d - n)
      (m + 1, d')

/-- The year of a day counted from 0001-01-01, and the day of that year from 0. A leap day ends its
cycle, so the last century of a 400-year cycle and the last year of a four-year cycle are one day
longer than the others. -/
def yearOfDay (n : Int) : Int × Nat :=
  let cycle := n / 146097
  let r := (n % 146097).toNat
  let century := min 3 (r / 36524)
  let r := r - century * 36524
  let quad := r / 1461
  let r := r % 1461
  let single := min 3 (r / 365)
  (400 * cycle + (100 * century + 4 * quad + single : Nat) + 1, r - single * 365)

def ofDays (n : Int) : Date :=
  let (year, dayOfYear) := yearOfDay (n + epoch)
  let (month, day) := locate (monthLengths year) dayOfYear
  { year, month := month + 1, day := day + 1 }

end Date

end ReplicaRouter
