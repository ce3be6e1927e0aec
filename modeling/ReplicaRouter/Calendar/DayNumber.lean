import ReplicaRouter.Calendar.Date

/-! # Dates and day numbers

Dates and day numbers correspond one to one, and later dates have greater numbers.

* `Date.toDays_ofDays`, `Date.valid_ofDays`: every day number is that of a date, the one computed.
* `Date.ofDays_toDays`: every date is the one computed from its number.
* `Date.toDays_lt_of_before`: the order of dates is that of their numbers.
-/

namespace ReplicaRouter.Date

/-! ## Years and months -/

theorem daysIn_monthLengths (year : Int) :
    daysIn (monthLengths year) = if IsLeap year then 366 else 365 := by
  unfold monthLengths
  split <;> rfl

theorem length_monthLengths (year : Int) : (monthLengths year).length = 12 := rfl

/-- The next year starts after the days of this one. -/
theorem daysBeforeYear_succ (year : Int) :
    daysBeforeYear (year + 1) = daysBeforeYear year + (daysIn (monthLengths year) : Nat) := by
  rw [daysIn_monthLengths]
  by_cases h : IsLeap year
  · rw [if_pos h]
    simp only [daysBeforeYear, IsLeap] at *
    omega
  · rw [if_neg h]
    simp only [daysBeforeYear, IsLeap] at *
    omega

/-- A day within the months is in the month and at the day of it that it is located at. -/
theorem locate_eq {ns : List Nat} {d : Nat} (h : d < daysIn ns) :
    (locate ns d).1 < ns.length ∧ (locate ns d).2 < ns.getD (locate ns d).1 0 ∧
      daysIn (ns.take (locate ns d).1) + (locate ns d).2 = d := by
  induction ns generalizing d with
  | nil => simp at h
  | cons n rest ih =>
    simp only [locate]
    split
    · rename_i hd; simp [hd]
    · rename_i hd
      obtain ⟨h1, h2, h3⟩ := ih (d := d - n) (by simp at h; omega)
      refine ⟨by simpa using h1, by simpa using h2, ?_⟩
      simp only [List.take_succ_cons, daysIn_cons]
      omega

/-- The parts of a year's place in the calendar add up to its days. -/
theorem daysBeforeYear_parts (cycle : Int) (century quad single : Nat) (hc : century ≤ 3)
    (hq : quad ≤ 24) (hs : single ≤ 3) :
    daysBeforeYear (400 * cycle + (100 * century + 4 * quad + single : Nat) + 1) =
      146097 * cycle + 36524 * century + 1461 * quad + 365 * single := by
  unfold daysBeforeYear
  have h4 : (400 * cycle + ((100 * century + 4 * quad + single : Nat) : Int) + 1 - 1) / 4 =
      100 * cycle + 25 * century + quad := by omega
  have h100 : (400 * cycle + ((100 * century + 4 * quad + single : Nat) : Int) + 1 - 1) / 100 =
      4 * cycle + century := by omega
  have h400 : (400 * cycle + ((100 * century + 4 * quad + single : Nat) : Int) + 1 - 1) / 400 =
      cycle := by omega
  simp only [h4, h100, h400]
  omega

/-- The year of a day, by its parts. -/
theorem yearOfDay_parts (n : Int) : ∃ (cycle : Int) (century quad single day : Nat),
    century ≤ 3 ∧ quad ≤ 24 ∧ single ≤ 3 ∧ day ≤ 365 ∧ (single < 3 → day < 365) ∧
      (century < 3 → quad = 24 → day < 365) ∧
      n = 146097 * cycle + 36524 * century + 1461 * quad + 365 * single + day ∧
      yearOfDay n = (400 * cycle + (100 * century + 4 * quad + single : Nat) + 1, day) := by
  refine ⟨n / 146097, _, _, _, _, ?_, ?_, ?_, ?_, ?_, ?_, ?_, rfl⟩ <;> omega

/-- A day is in its year, at its day of it. -/
theorem yearOfDay_eq (n : Int) :
    daysBeforeYear (yearOfDay n).1 + (yearOfDay n).2 = n ∧
      (yearOfDay n).2 < daysIn (monthLengths (yearOfDay n).1) := by
  obtain ⟨cycle, century, quad, single, day, hc, hq, hs, hd, h1, h2, hn, hy⟩ := yearOfDay_parts n
  rw [hy]
  refine ⟨by rw [daysBeforeYear_parts cycle century quad single hc hq hs, hn], ?_⟩
  rw [daysIn_monthLengths]
  split
  · simp only; omega
  · rename_i h
    by_cases hlt : day < 365
    · exact hlt
    · refine absurd ?_ h
      unfold IsLeap
      omega

/-- Every day number has a date. -/
theorem valid_ofDays (n : Int) : (ofDays n).Valid := by
  obtain ⟨h1, h2, _⟩ := locate_eq (yearOfDay_eq (n + epoch)).2
  simp only [Valid, ofDays, length_monthLengths] at *
  refine ⟨by omega, by omega, by omega, ?_⟩
  simp only [Nat.add_sub_cancel]
  omega

theorem toDays_ofDays (n : Int) : (ofDays n).toDays = n := by
  obtain ⟨hy, hd⟩ := yearOfDay_eq (n + epoch)
  obtain ⟨_, _, h3⟩ := locate_eq hd
  simp only [toDays, ofDays, Nat.add_sub_cancel]
  omega

/-! ## Order -/

/-- The order of dates: by year, then month, then day. -/
def Before (a b : Date) : Prop :=
  a.year < b.year ∨ a.year = b.year ∧ (a.month < b.month ∨ a.month = b.month ∧ a.day < b.day)

theorem daysBeforeYear_mono {y z : Int} (h : y ≤ z) : daysBeforeYear y ≤ daysBeforeYear z := by
  obtain ⟨k, rfl⟩ := Int.le.dest h
  induction k with
  | zero => simp
  | succ k ih =>
    have := ih (by omega)
    have := daysBeforeYear_succ (y + k)
    rw [show y + ((k + 1 : Nat) : Int) = y + k + 1 by omega]
    omega

theorem daysIn_take_le (ns : List Nat) {i j : Nat} (h : i ≤ j) :
    daysIn (ns.take i) ≤ daysIn (ns.take j) := by
  induction ns generalizing i j with
  | nil => simp
  | cons n rest ih =>
    cases i with
    | zero => simp
    | succ i =>
      obtain ⟨j, rfl⟩ : ∃ k, j = k + 1 := ⟨j - 1, by omega⟩
      simp only [List.take_succ_cons, daysIn_cons]
      have := ih (i := i) (j := j) (by omega)
      omega

theorem daysIn_take_succ (ns : List Nat) (i : Nat) :
    daysIn (ns.take (i + 1)) = daysIn (ns.take i) + ns.getD i 0 := by
  induction ns generalizing i with
  | nil => simp
  | cons n rest ih =>
    cases i with
    | zero => simp
    | succ i =>
      simp only [List.take_succ_cons, daysIn_cons, List.getD_cons_succ, ih i]
      omega

/-- A valid date is within the days of its year. -/
theorem dayOfYear_lt {d : Date} (h : d.Valid) :
    daysIn ((monthLengths d.year).take (d.month - 1)) + (d.day - 1) <
      daysIn (monthLengths d.year) := by
  obtain ⟨h1, h2, h3, h4⟩ := h
  have hs := daysIn_take_succ (monthLengths d.year) (d.month - 1)
  have hl := daysIn_take_le (monthLengths d.year) (i := d.month - 1 + 1) (j := 12) (by omega)
  rw [List.take_of_length_le (i := 12) (Nat.le_of_eq (length_monthLengths _))] at hl
  omega

/-- Later dates have greater day numbers. -/
theorem toDays_lt_of_before {a b : Date} (ha : a.Valid) (hb : b.Valid) (h : a.Before b) :
    a.toDays < b.toDays := by
  have hA := dayOfYear_lt ha
  obtain ⟨a1, a2, a3, a4⟩ := ha
  obtain ⟨b1, b2, b3, b4⟩ := hb
  unfold toDays
  rcases h with hy | ⟨hy, hm | ⟨hm, hd⟩⟩
  · have := daysBeforeYear_succ a.year
    have := daysBeforeYear_mono (y := a.year + 1) (z := b.year) (by omega)
    omega
  · rw [← hy]
    have hs := daysIn_take_succ (monthLengths a.year) (a.month - 1)
    have hl := daysIn_take_le (monthLengths a.year) (i := a.month - 1 + 1) (j := b.month - 1)
      (by omega)
    omega
  · rw [← hy, ← hm]
    omega

theorem before_or_eq_or_before (a b : Date) : a.Before b ∨ a = b ∨ b.Before a := by
  obtain ⟨ya, ma, da⟩ := a
  obtain ⟨yb, mb, db⟩ := b
  simp only [Before, Date.mk.injEq]
  omega

/-- A date is the date of its day number. -/
theorem ofDays_toDays {d : Date} (h : d.Valid) : ofDays d.toDays = d := by
  have hv := valid_ofDays d.toDays
  have ht := toDays_ofDays d.toDays
  rcases before_or_eq_or_before (ofDays d.toDays) d with hb | he | hb
  · have := toDays_lt_of_before hv h hb; omega
  · exact he
  · have := toDays_lt_of_before h hv hb; omega

end ReplicaRouter.Date
