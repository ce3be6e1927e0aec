import ReplicaRouter.Proofs.Shard.Dates

/-!
# Dates in order

The numbers of dates are in the order of the dates, since a month and a day take less than the four
digits that a year leaves them (`CalendarPart.index_lt_of_before`). Day numbers are in that order
too (`Date.before_ofDays`), and the local day of an instant is the quotient of its local seconds. So
later instants never number earlier tables, and tables by day change exactly with the local day
(`CalendarPart.find_ordered`), also before year 0, where the year counts negatively but month and
day do not.
-/

namespace ReplicaRouter

namespace Date

theorem before_ofDays {m n : Int} (h : m < n) : (ofDays m).Before (ofDays n) := by
  rcases before_or_eq_or_before (ofDays m) (ofDays n) with hb | he | hb
  · exact hb
  · have hdays := congrArg toDays he
    rw [toDays_ofDays, toDays_ofDays] at hdays
    omega
  · have hdays := toDays_lt_of_before (valid_ofDays n) (valid_ofDays m) hb
    rw [toDays_ofDays, toDays_ofDays] at hdays
    omega

end Date

namespace CalendarPart

section
variable {a b : Date} (ha : a.Valid) (hb : b.Valid) (h : a.Before b)
include ha hb h

theorem index_lt_of_before : index .day a < index .day b := by
  have hmonth := ha.2.1
  have hday := Date.day_le ha
  have hfirst := hb.2.2.1
  show a.year * 10000 + a.month * 100 + a.day < b.year * 10000 + b.month * 100 + b.day
  rcases h with hy | ⟨hy, hm | ⟨hm, hd⟩⟩
  · omega
  · omega
  · omega

theorem index_le_of_before (part : CalendarPart) : part.index a ≤ part.index b := by
  have hmonth := ha.2.1
  cases part with
  | year =>
    show a.year ≤ b.year
    rcases h with hy | ⟨hy, -⟩
    · exact Int.le_of_lt hy
    · exact Int.le_of_eq hy
  | month =>
    show a.year * 100 + a.month ≤ b.year * 100 + b.month
    rcases h with hy | ⟨hy, hm | ⟨hm, -⟩⟩
    · omega
    · omega
    · omega
  | day => exact Int.le_of_lt (index_lt_of_before ha hb h)

end

theorem index_ofDays_lt {m n : Int} (h : m < n) :
    index .day (Date.ofDays m) < index .day (Date.ofDays n) :=
  index_lt_of_before (Date.valid_ofDays m) (Date.valid_ofDays n) (Date.before_ofDays h)

theorem index_ofDays_le (part : CalendarPart) {m n : Int} (h : m ≤ n) :
    part.index (Date.ofDays m) ≤ part.index (Date.ofDays n) := by
  rcases Int.lt_or_eq_of_le h with hlt | rfl
  · apply index_le_of_before (Date.valid_ofDays m) (Date.valid_ofDays n)
    exact Date.before_ofDays hlt
  · exact Int.le_refl _

/-- What is found for an instant is the number of its local day. -/
theorem find_int_ok_iff {part : CalendarPart} {offset : Int} {s : Int64} {rest : List Key}
    {i : Int} : part.find offset (.int s :: rest) = .ok i ↔
      IsInstant s.toInt ∧ part.index (Date.ofDays ((s.toInt + offset) / 86400)) = i := by
  show part.findInstant offset s = .ok i ↔ _
  unfold findInstant
  split
  · rename_i hs
    simp only [hs, true_and, Except.ok.injEq]
    exact Iff.rfl
  · rename_i hs
    simp [hs]

/-- **Numbers of dates are in the order of time.** Of two instants that are given a number, the
later has no smaller one. By day, the numbers are the same exactly on the same local day, and grow
from each local day to the next. The instants are those of the years -262143 to 262142. -/
theorem find_ordered (part : CalendarPart) (offset : Int) (rest : List Key) :
    let found (s : Int64) := part.find offset (.int s :: rest)
    let localDay (s : Int64) := (s.toInt + offset) / 86400
    (∀ s, (∃ i, found s = .ok i) ↔ -8334601228800 ≤ s.toInt ∧ s.toInt ≤ 8210266876799) ∧
    ∀ s t i j, s ≤ t → found s = .ok i → found t = .ok j →
      i ≤ j ∧ (part = .day →
        (i = j ↔ localDay s = localDay t) ∧ (localDay s < localDay t → i < j)) := by
  intro found localDay
  refine ⟨fun s => ?_, fun s t i j hst hs ht => ?_⟩
  · constructor
    · intro hfound
      obtain ⟨i, hi⟩ := hfound
      exact (find_int_ok_iff.1 hi).1
    · exact fun hs => ⟨_, find_int_ok_iff.2 ⟨hs, rfl⟩⟩
  obtain ⟨-, rfl⟩ := find_int_ok_iff.1 hs
  obtain ⟨-, rfl⟩ := find_int_ok_iff.1 ht
  have hseconds := Int64.le_iff_toInt_le.1 hst
  have hdays : localDay s ≤ localDay t := by
    apply Int.ediv_le_ediv (by decide)
    omega
  refine ⟨index_ofDays_le part hdays, ?_⟩
  intro hpart
  subst hpart
  refine ⟨⟨fun h => ?_, fun h => ?_⟩, index_ofDays_lt⟩
  · -- On different days the numbers would differ.
    rcases Int.lt_or_eq_of_le hdays with hlt | heq
    · exact absurd h (Int.ne_of_lt (index_ofDays_lt hlt))
    · exact heq
  · exact congrArg (fun d => index .day (Date.ofDays d)) h

/-- The last second before year 0 and its first. -/
theorem find_ordered_year_zero :
    find .day 0 [.int (-62167219201)] = .ok (-8769) ∧ find .day 0 [.int (-62167219200)] = .ok 101 ∧
      (-8769 : Int) < 101 := by
  have hs : find .day 0 [.int (-62167219201)] = .ok (-8769) := by decide +kernel
  have ht : find .day 0 [.int (-62167219200)] = .ok 101 := by decide +kernel
  have h := (find_ordered .day 0 []).2 _ _ _ _ (by decide) hs ht
  exact ⟨hs, ht, (h.2 rfl).2 (by decide)⟩

end CalendarPart

end ReplicaRouter
