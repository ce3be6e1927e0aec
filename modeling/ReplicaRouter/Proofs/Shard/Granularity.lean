import ReplicaRouter.Proofs.Shard.Literals

/-!
# Days, months and years

The number of a day without its last two digits is that of its month, and that of a month without
its last two is the year. It is so for instants, where the quotient is rounded down, before year 0
too (`CalendarPart.index_div`), and for every text that is numbered as a day, whatever its fields
say: the coarser part reads the same digits less the last two
(`CalendarPart.literalDigits_divides`).

A key that is no instant, or that dates cannot be, is refused alike by all parts. A text is not: one
that is too short for a day, or has no digits there, may still be numbered by its month or year.
-/

namespace ReplicaRouter.CalendarPart

open Utf8 (asciiBytes)

/-- The parts whose numbers differ by two digits. -/
inductive Divides : CalendarPart → CalendarPart → Prop
  | months : Divides .month .year
  | days : Divides .day .month

/-! ## Numbers -/

theorem index_div {fine coarse : CalendarPart} (h : fine.Divides coarse) {d : Date}
    (hd : d.Valid) : fine.index d / 100 = coarse.index d := by
  have hday := Date.day_le hd
  have hmonth := hd.2.1
  cases h with
  | months => simp only [index]; omega
  | days => simp only [index]; omega

/-- Without their last digits, digits have the quotient of their value. -/
theorem digitsValue?_append {b last : List UInt8} {i : Int}
    (h : digitsValue? (b ++ last) = some i) :
    digitsValue? b = some (i / (10 ^ last.length : Nat)) := by
  obtain ⟨cs, hcs, hb, rfl⟩ := digitsValue?_eq_some_iff.1 h
  obtain ⟨ds, es, rfl, rfl, rfl⟩ := List.map_eq_append_iff.1 hb
  obtain ⟨hds, hes⟩ := Decimal.isDigits_append.1 hcs
  have hquotient : Nat.ofDigitChars 10 (ds ++ es) 0 / 10 ^ es.length =
      Nat.ofDigitChars 10 ds 0 := by
    rw [Nat.ofDigitChars_append, Nat.ofDigitChars_eq_ofDigitChars_zero, Nat.add_comm,
      Nat.add_mul_div_left _ _ (Nat.pow_pos (by decide)),
      Nat.div_eq_of_lt (Decimal.ofDigitChars_lt hes), Nat.zero_add]
  rw [← asciiBytes, digitsValue?_asciiBytes hds, List.length_map, ← Int.natCast_ediv, hquotient]

theorem literalLength_le_of_divides {fine coarse : CalendarPart} (h : fine.Divides coarse) :
    coarse.literalLength ≤ fine.literalLength := by
  cases h <;> decide

theorem literalDigits_divides {fine coarse : CalendarPart} (h : fine.Divides coarse)
    {b : List UInt8} (hlong : fine.literalLength ≤ b.length) :
    ∃ last, last.length = 2 ∧ fine.literalDigits b = coarse.literalDigits b ++ last := by
  cases h with
  | months =>
    have : 10 ≤ b.length := hlong
    exact ⟨(b.drop 5).take 2, by simp; omega, rfl⟩
  | days =>
    have : 10 ≤ b.length := hlong
    exact ⟨(b.drop 8).take 2, by simp; omega, rfl⟩

/-! ## Look-ups -/

/-- The coarse look-up leaves off the last two digits of the fine one. It fails only if that fails,
with the same error, and fails with it unless that is over a malformed text. -/
structure Coarsens (fine coarse : Except LookupError Int) : Prop where
  ok : ∀ i, fine = .ok i → coarse = .ok (i / 100)
  error : ∀ e, coarse = .error e → fine = .error e
  refused : ∀ e, fine = .error e → (∀ key, e ≠ .malformed key) → coarse = .error e

theorem coarsens_error (e : LookupError) : Coarsens (.error e) (.error e) :=
  ⟨nofun, fun _ => id, fun _ h _ => h⟩

section
variable {fine coarse : CalendarPart} (h : fine.Divides coarse)
include h

theorem coarsens_findInstant (offset : Int) (s : Int64) :
    Coarsens (fine.findInstant offset s) (coarse.findInstant offset s) := by
  unfold findInstant
  split
  · have hquotient := index_div h (Date.valid_ofDays ((s.toInt + offset) / secondsPerDay))
    refine ⟨fun i hi => ?_, nofun, nofun⟩
    rw [← Except.ok.inj hi]
    exact congrArg Except.ok hquotient.symm
  · exact coarsens_error .keyMissing

theorem findLiteral_coarser {s : String} {i : Int} (hi : fine.findLiteral s = .ok i) :
    coarse.findLiteral s = .ok (i / 100) := by
  obtain ⟨hlong, hvalue⟩ := findLiteral_ok_iff.1 hi
  obtain ⟨last, hlast, hdigits⟩ := literalDigits_divides h hlong
  rw [hdigits] at hvalue
  have hquotient := digitsValue?_append hvalue
  rw [hlast] at hquotient
  exact findLiteral_ok_iff.2 ⟨Nat.le_trans (literalLength_le_of_divides h) hlong, hquotient⟩

theorem coarsens_findLiteral (s : String) :
    Coarsens (fine.findLiteral s) (coarse.findLiteral s) := by
  refine ⟨fun i => findLiteral_coarser h, fun e he => ?_, fun e he hreturned => ?_⟩
  · have hcoarse : ¬ ∃ i, coarse.findLiteral s = .ok i := by
      rintro ⟨i, hi⟩
      cases he.symm.trans hi
    have hfine : ¬ ∃ i, fine.findLiteral s = .ok i := fun hi =>
      hcoarse ⟨_, findLiteral_coarser h hi.choose_spec⟩
    rw [findLiteral_error hfine, ← findLiteral_error hcoarse, he]
  · have hfine : ¬ ∃ i, fine.findLiteral s = .ok i := by
      rintro ⟨i, hi⟩
      cases he.symm.trans hi
    rw [findLiteral_error hfine] at he
    exact absurd (Except.error.inj he).symm (hreturned _)

theorem coarsens_find (offset : Int) (keys : List Key) :
    Coarsens (fine.find offset keys) (coarse.find offset keys) := by
  rcases keys with _ | ⟨k, rest⟩
  · exact coarsens_error .keyMissing
  cases k with
  | int v => exact coarsens_findInstant h offset v
  | uint v => exact coarsens_findInstant h offset v.toInt64
  | text s => exact coarsens_findLiteral h s
  | bytes b => exact coarsens_error .keyMissing

end

/-- **Days refine months, and months refine years.** What is numbered by day is numbered by month
and by year, with the quotients rounded down. An error of the day is one of the month and the year
alike, a malformed text apart, over which the coarser part aborts only where the finer one does. -/
theorem find_coarser (offset : Int) (keys : List Key) :
    let day := find .day offset keys
    let month := find .month offset keys
    let year := find .year offset keys
    (∀ i, day = .ok i → month = .ok (i / 100) ∧ year = .ok (i / 10000)) ∧
      (∀ e, day = .error e → (∀ key, e ≠ .malformed key) →
        month = .error e ∧ year = .error e) ∧
      (∀ key, (year = .error (.malformed key) → month = .error (.malformed key)) ∧
        (month = .error (.malformed key) → day = .error (.malformed key))) := by
  intro day month year
  have hmonth : Coarsens day month := coarsens_find .days offset keys
  have hyear : Coarsens month year := coarsens_find .months offset keys
  refine ⟨fun i hi => ?_, fun e he hreturned => ?_, fun key => ?_⟩
  · have hmi := hmonth.ok i hi
    have hyi := hyear.ok _ hmi
    rw [Int.ediv_ediv_of_nonneg (by decide)] at hyi
    exact ⟨hmi, hyi⟩
  · have hme := hmonth.refused e he hreturned
    exact ⟨hme, hyear.refused e hme hreturned⟩
  · exact ⟨hyear.error _, hmonth.error _⟩

/-- The last second before year 0. -/
theorem find_coarser_year_zero :
    find .day 0 [.int (-62167219201)] = .ok (-8769) ∧
      find .month 0 [.int (-62167219201)] = .ok (-88) ∧
      find .year 0 [.int (-62167219201)] = .ok (-1) := by
  have hday : find .day 0 [.int (-62167219201)] = .ok (-8769) := by decide +kernel
  obtain ⟨hmonth, hyear⟩ := (find_coarser 0 [.int (-62167219201)]).1 _ hday
  exact ⟨hday, hmonth, hyear⟩

example : find .day 0 [.text "2023"] = .error (.malformed (.notDate "2023")) ∧
    find .year 0 [.text "2023"] = .ok 2023 := by decide +kernel

end ReplicaRouter.CalendarPart
