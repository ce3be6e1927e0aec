import ReplicaRouter.Calendar.Date
import ReplicaRouter.Shard.Key

/-! # Sharding by calendar date

The tables are numbered by the year, the month or the day of the first key.

* An integer key is a number of seconds since 1970-01-01T00:00:00Z, read as the date at a local
  offset (`CalendarPart.findInstant`).
* A text key is a literal date (`CalendarPart.findLiteral`).
-/

namespace ReplicaRouter

/-- The part of a date that numbers the tables. -/
inductive CalendarPart
  | year
  | month
  | day
deriving Repr, DecidableEq

/-- The seconds of a day. -/
def secondsPerDay : Int := 86400

/-- Whether a count of seconds is an instant of the calendar: one of the years -262143 to 262142 in
universal time. -/
def IsInstant (seconds : Int) : Prop :=
  -8334601228800 ≤ seconds ∧ seconds ≤ 8210266876799

instance (seconds : Int) : Decidable (IsInstant seconds) :=
  inferInstanceAs (Decidable (_ ∧ _))

/-- The date at an instant, `offset` seconds east of universal time. -/
def Date.atInstant (offset seconds : Int) : Date :=
  Date.ofDays ((seconds + offset) / secondsPerDay)

namespace CalendarPart

/-- The number of a date: its year, or the year and month, or all three, as one decimal number. -/
def index (part : CalendarPart) (d : Date) : Int :=
  match part with
  | .year => d.year
  | .month => d.year * 100 + d.month
  | .day => d.year * 10000 + d.month * 100 + d.day

/-- The number of an instant's date. -/
def findInstant (part : CalendarPart) (offset : Int) (seconds : Int64) :
    Except LookupError Int :=
  if IsInstant seconds.toInt then .ok (part.index (Date.atInstant offset seconds.toInt))
  else .error .keyMissing

/-- The least length in bytes of a literal date. -/
def literalLength : CalendarPart → Nat
  | .year => 4
  | .month => 10
  | .day => 10

/-- The bytes of a literal that hold its digits: four of the year, two of the month after a
separator, two of the day after another. -/
def literalDigits (part : CalendarPart) (b : List UInt8) : List UInt8 :=
  let year := b.take 4
  let month := (b.drop 5).take 2
  let day := (b.drop 8).take 2
  match part with
  | .year => year
  | .month => year ++ month
  | .day => year ++ month ++ day

/-- The number that digits spell, or nothing if a byte is no digit. -/
def digitsValue? (b : List UInt8) : Option Int :=
  b.foldlM
    (fun n d => if 48 ≤ d.toNat ∧ d.toNat ≤ 57 then some (n * 10 + (d.toNat - 48)) else none) 0

/-- The number of a literal date. The separators and the rest of the text are not looked at. -/
def findLiteral (part : CalendarPart) (s : String) : Except LookupError Int :=
  let b := Utf8.encode s
  if b.length < part.literalLength then .error (.malformed (.notDate s))
  else match digitsValue? (part.literalDigits b) with
    | some n => .ok n
    | none => .error (.malformed (.notDate s))

/-- The number of the first key's date at a local offset. The other keys are not looked at. -/
def find (part : CalendarPart) (offset : Int) : List Key → Except LookupError Int
  | .int v :: _ => part.findInstant offset v
  | .uint v :: _ => part.findInstant offset v.toInt64
  | .text s :: _ => part.findLiteral s
  | .bytes _ :: _ => .error .keyMissing
  | [] => .error .keyMissing

end CalendarPart

end ReplicaRouter
