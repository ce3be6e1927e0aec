import ReplicaRouter.Calendar.DayNumber
import ReplicaRouter.Proofs.Numerals
import ReplicaRouter.Shard.Calendar

/-!
# Dates as keys

A date of the years 0 to 9999 numbers the same table as a literal (`CalendarPart.findLiteral_date`)
and as any second of it on the clock of the place (`CalendarPart.findInstant_date`).

A literal is cut at fixed bytes, so its fields are padded to fixed widths (`Decimal.padded`); an
instant is a day number and a second of the day, so its date is that of the day number
(`Date.ofDays_toDays`).
-/

namespace ReplicaRouter

/-! ## Padded numbers -/

namespace Decimal

/-- The digits of a number with zeros in front, at least `w` of them. -/
def padded (w n : Nat) : List Char := (Nat.toDigits 10 n).leftpad w '0'

theorem isDigits_padded (w n : Nat) : IsDigits (padded w n) := by
  refine isDigits_append.2 ⟨fun c hc => ?_, isDigits_toDigits n⟩
  rw [List.eq_of_mem_replicate hc]
  rfl

theorem length_padded {w n : Nat} (hw : 0 < w) (hn : n < 10 ^ w) : (padded w n).length = w := by
  have := (Nat.length_toDigits_le_iff (by decide) hw).2 hn
  rw [padded, List.length_leftpad]
  omega

theorem ofDigitChars_padded {w n : Nat} (hw : 0 < w) (hn : n < 10 ^ w) (m : Nat) :
    Nat.ofDigitChars 10 (padded w n) m = 10 ^ w * m + n := by
  rw [Nat.ofDigitChars_eq_ofDigitChars_zero, length_padded hw hn, padded, List.leftpad,
    Nat.ofDigitChars_append, Nat.ofDigitChars_replicate_zero, Nat.mul_zero,
    Nat.ofDigitChars_ten_toDigits]

end Decimal

open Decimal (padded IsDigits)
open Utf8 (asciiBytes)

/-! ## Bounds of dates -/

namespace Date

theorem day_le {d : Date} (h : d.Valid) : d.day ≤ 31 := by
  have hmax : ∀ n ∈ monthLengths d.year, n ≤ 31 := by
    unfold monthLengths
    split <;> decide
  have hlt : d.month - 1 < (monthLengths d.year).length := by
    have := h.2.1
    rw [length_monthLengths]
    omega
  have hle := h.2.2.2
  rw [List.getD_eq_getElem?_getD, List.getElem?_eq_getElem hlt, Option.getD_some] at hle
  exact Nat.le_trans hle (hmax _ (List.getElem_mem hlt))

theorem toDays_bounds {d : Date} (h : d.Valid) (h0 : 0 ≤ d.year) (h9 : d.year ≤ 9999) :
    -719528 ≤ d.toDays ∧ d.toDays ≤ 2932896 := by
  have hlow := daysBeforeYear_mono h0
  have hhigh := daysBeforeYear_mono (Int.add_le_add_right h9 1)
  have hday := dayOfYear_lt h
  have hfirst := h.2.2.1
  rw [daysBeforeYear_succ d.year] at hhigh
  rw [show daysBeforeYear 0 = -366 from rfl] at hlow
  rw [show daysBeforeYear (9999 + 1) = 3652059 from rfl] at hhigh
  unfold toDays epoch
  omega

end Date

/-! ## Literals -/

/-- The year in four digits, the month and the day in two. -/
def Date.literal (d : Date) : String :=
  String.ofList (padded 4 d.year.toNat ++ '-' :: (padded 2 d.month ++ '-' :: padded 2 d.day))

namespace CalendarPart

theorem digitsValue?_asciiBytes {cs : List Char} (h : IsDigits cs) :
    digitsValue? (asciiBytes cs) = some (Nat.ofDigitChars 10 cs 0 : Int) := by
  suffices hfold : ∀ n : Nat, (asciiBytes cs).foldlM (fun (n : Int) (d : UInt8) =>
      if 48 ≤ d.toNat ∧ d.toNat ≤ 57 then some (n * 10 + (d.toNat - 48)) else none) (n : Int) =
        some (Nat.ofDigitChars 10 cs n : Int) from hfold 0
  induction cs with
  | nil => exact fun n => rfl
  | cons c rest ih =>
    intro n
    obtain ⟨hc, hrest⟩ := Decimal.isDigits_cons.1 h
    obtain ⟨h1, h2⟩ := Char.isDigit_iff_toNat.1 hc
    have hbyte : c.toNat.toUInt8.toNat = c.toNat := Nat.mod_eq_of_lt (by simp at h2; omega)
    have hnext : (n : Int) * 10 + (c.toNat - 48) = ((10 * n + (c.toNat - 48) : Nat) : Int) := by
      simp at h1
      omega
    rw [asciiBytes, List.map_cons, List.foldlM_cons, hbyte, if_pos ⟨h1, h2⟩, hnext]
    exact ih hrest _

/-- The digits of a text of three fields, whatever separates and follows them. -/
theorem literalDigits_fields (part : CalendarPart) {y m d : List UInt8} (hy : y.length = 4)
    (hm : m.length = 2) (hd : d.length = 2) (s s' : UInt8) (rest : List UInt8) :
    part.literalDigits (y ++ s :: (m ++ s' :: (d ++ rest))) =
      match part with
      | .year => y
      | .month => y ++ m
      | .day => y ++ m ++ d := by
  have hyear : (y ++ s :: (m ++ s' :: (d ++ rest))).take 4 = y := List.take_left' hy
  -- A field is dropped to by gathering what stands before it, whose length is known.
  have hmonth : (y ++ s :: (m ++ s' :: (d ++ rest))).drop 5 = m ++ s' :: (d ++ rest) := by
    rw [List.append_cons]
    exact List.drop_left' (by simp [hy])
  have hday : (y ++ s :: (m ++ s' :: (d ++ rest))).drop 8 = d ++ rest := by
    rw [List.append_cons, List.append_cons m, ← List.append_assoc]
    exact List.drop_left' (by simp [hy, hm])
  cases part with
  | year => exact hyear
  | month => simp only [literalDigits, hyear, hmonth, List.take_left' hm]
  | day => simp only [literalDigits, hyear, hmonth, hday, List.take_left' hm, List.take_left' hd]

theorem encode_literal (d : Date) (suffix : String) :
    Utf8.encode (d.literal ++ suffix) = asciiBytes (padded 4 d.year.toNat) ++
      45 :: (asciiBytes (padded 2 d.month) ++ 45 :: (asciiBytes (padded 2 d.day) ++
        Utf8.encode suffix)) := by
  have hascii : Decimal.IsAscii d.literal.toList := by
    rw [Date.literal, String.toList_ofList]
    intro c hc
    simp only [List.mem_append, List.mem_cons] at hc
    rcases hc with hc | rfl | hc | rfl | hc
    · exact (Decimal.isDigits_padded _ _).isAscii c hc
    · decide
    · exact (Decimal.isDigits_padded _ _).isAscii c hc
    · decide
    · exact (Decimal.isDigits_padded _ _).isAscii c hc
  rw [Utf8.encode_append, Utf8.encode_of_ascii hascii, Date.literal, String.toList_ofList]
  simp [asciiBytes]

/-- The digits of a literal that number the table. -/
def dateDigits (part : CalendarPart) (d : Date) : List Char :=
  match part with
  | .year => padded 4 d.year.toNat
  | .month => padded 4 d.year.toNat ++ padded 2 d.month
  | .day => padded 4 d.year.toNat ++ padded 2 d.month ++ padded 2 d.day

theorem isDigits_dateDigits (part : CalendarPart) (d : Date) : IsDigits (part.dateDigits d) := by
  have hy := Decimal.isDigits_padded 4 d.year.toNat
  have hm := Decimal.isDigits_padded 2 d.month
  have hd := Decimal.isDigits_padded 2 d.day
  cases part with
  | year => exact hy
  | month => exact Decimal.isDigits_append.2 ⟨hy, hm⟩
  | day => exact Decimal.isDigits_append.2 ⟨Decimal.isDigits_append.2 ⟨hy, hm⟩, hd⟩

section
variable {d : Date} (hd : d.Valid) (h0 : 0 ≤ d.year) (h9 : d.year ≤ 9999)
include hd h0 h9

theorem widths : (padded 4 d.year.toNat).length = 4 ∧ (padded 2 d.month).length = 2 ∧
    (padded 2 d.day).length = 2 := by
  have hday := Date.day_le hd
  have hmonth := hd.2.1
  exact ⟨Decimal.length_padded (by decide) (by omega), Decimal.length_padded (by decide) (by omega),
    Decimal.length_padded (by decide) (by omega)⟩

theorem ofDigitChars_dateDigits (part : CalendarPart) :
    (Nat.ofDigitChars 10 (part.dateDigits d) 0 : Int) = part.index d := by
  have hday := Date.day_le hd
  have hmonth := hd.2.1
  have hy := Decimal.ofDigitChars_padded (w := 4) (n := d.year.toNat) (by decide) (by omega)
  have hm := Decimal.ofDigitChars_padded (w := 2) (n := d.month) (by decide) (by omega)
  have hd := Decimal.ofDigitChars_padded (w := 2) (n := d.day) (by decide) (by omega)
  cases part with
  | year => simp only [dateDigits, index, hy]; omega
  | month => simp only [dateDigits, index, Nat.ofDigitChars_append, hy, hm]; omega
  | day => simp only [dateDigits, index, Nat.ofDigitChars_append, hy, hm, hd]; omega

theorem literalDigits_literal (part : CalendarPart) (suffix : String) :
    part.literalDigits (Utf8.encode (d.literal ++ suffix)) = asciiBytes (part.dateDigits d) := by
  obtain ⟨hy, hm, hd⟩ := widths hd h0 h9
  rw [encode_literal, literalDigits_fields part (by rw [asciiBytes, List.length_map, hy])
    (by rw [asciiBytes, List.length_map, hm]) (by rw [asciiBytes, List.length_map, hd])]
  cases part <;> simp only [dateDigits, asciiBytes, List.map_append]

theorem literalLength_le (part : CalendarPart) (suffix : String) :
    part.literalLength ≤ (Utf8.encode (d.literal ++ suffix)).length := by
  obtain ⟨hy, hm, hd⟩ := widths hd h0 h9
  rw [encode_literal]
  simp only [asciiBytes, List.length_append, List.length_cons, List.length_map, hy, hm, hd]
  cases part <;> simp only [literalLength] <;> omega

theorem findLiteral_date (part : CalendarPart) (suffix : String) :
    part.findLiteral (d.literal ++ suffix) = .ok (part.index d) := by
  have hlong := Nat.not_lt.2 (literalLength_le hd h0 h9 part suffix)
  simp only [findLiteral, if_neg hlong, literalDigits_literal hd h0 h9,
    digitsValue?_asciiBytes (isDigits_dateDigits part d), ofDigitChars_dateDigits hd h0 h9]

/-! ## Instants -/

theorem findInstant_date (part : CalendarPart) {second : Int} (hs0 : 0 ≤ second)
    (hs1 : second < secondsPerDay) {offset : Int} (ho : offset.natAbs < 86400) {v : Int64}
    (hv : v.toInt = d.toDays * secondsPerDay + second - offset) :
    part.findInstant offset v = .ok (part.index d) := by
  have hdays := Date.toDays_bounds hd h0 h9
  have hinstant : IsInstant v.toInt := by
    rw [hv]
    unfold IsInstant
    simp only [secondsPerDay] at *
    omega
  have hdate : Date.atInstant offset v.toInt = d := by
    have hday : (v.toInt + offset) / secondsPerDay = d.toDays := by
      rw [hv]
      simp only [secondsPerDay] at *
      omega
    rw [Date.atInstant, hday, Date.ofDays_toDays hd]
  rw [findInstant, if_pos hinstant, hdate]

end

/-- **Epoch seconds and literals of a date agree.** A second of the day on a clock `offset` seconds
east of universal time, as a signed or an unsigned key, and the literal, whatever follows it, number
the same table. -/
theorem find_date (part : CalendarPart) {d : Date} (hd : d.Valid) (h0 : 0 ≤ d.year)
    (h9 : d.year ≤ 9999) {second : Int} (hs0 : 0 ≤ second) (hs1 : second < 86400) {offset : Int}
    (ho : offset.natAbs ≤ 86399) (suffix : String) (rest : List Key) :
    let seconds := d.toDays * 86400 + second - offset
    let index := match part with
      | .day => d.year * 10000 + d.month * 100 + d.day
      | .month => d.year * 100 + d.month
      | .year => d.year
    (∃ v : Int64, v.toInt = seconds ∧ part.find offset (.int v :: rest) = .ok index) ∧
      (0 ≤ seconds → ∃ v : UInt64, (v.toNat : Int) = seconds ∧
        part.find offset (.uint v :: rest) = .ok index) ∧
      part.find offset (.text (d.literal ++ suffix) :: rest) = .ok index := by
  intro seconds index
  have hindex : part.index d = index := by cases part <;> rfl
  have hdays := Date.toDays_bounds hd h0 h9
  have hinstant : ∀ v : Int64, v.toInt = seconds → part.findInstant offset v = .ok index :=
    fun v hv => hindex ▸ findInstant_date hd h0 h9 part hs0 hs1 (Nat.lt_succ_of_le ho) hv
  refine ⟨⟨Int64.ofInt seconds, ?_, hinstant _ ?_⟩, fun hpos => ?_, ?_⟩
  · exact Int64.toInt_ofInt_of_le (by omega) (by omega)
  · exact Int64.toInt_ofInt_of_le (by omega) (by omega)
  · have hword : (UInt64.ofNat seconds.toNat).toNat = seconds.toNat :=
      UInt64.toNat_ofNat_of_lt' (show seconds.toNat < 2 ^ 64 by omega)
    refine ⟨UInt64.ofNat seconds.toNat, by omega, hinstant _ ?_⟩
    rw [toInt_toInt64_of_lt (by omega), hword]
    omega
  · exact hindex ▸ findLiteral_date hd h0 h9 part suffix

/-- Half past midnight of a leap day, two hours east. -/
theorem find_date_leap_day :
    Date.Valid ⟨2000, 2, 29⟩ ∧
      (∃ v : Int64, v.toInt = 951777000 ∧ day.find 7200 [.int v] = .ok 20000229) ∧
      day.find 7200 [.text "2000-02-29 00:30:00"] = .ok 20000229 := by
  have hd : Date.Valid ⟨2000, 2, 29⟩ := by decide
  have hs0 : (0 : Int) ≤ 1800 := by decide
  have ho : (7200 : Int).natAbs ≤ 86399 := by decide
  have h := find_date day hd (by decide) (by decide) hs0 (by decide) ho " 00:30:00" []
  have hliteral : Date.literal ⟨2000, 2, 29⟩ ++ " 00:30:00" = "2000-02-29 00:30:00" := by decide
  rw [hliteral] at h
  exact ⟨hd, h.1, h.2.2⟩

end CalendarPart

end ReplicaRouter
