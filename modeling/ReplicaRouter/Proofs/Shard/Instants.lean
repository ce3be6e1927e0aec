import ReplicaRouter.Proofs.Shard.Dates

/-!
# Unsigned instants

A count of seconds numbers the table of its date (`CalendarPart.findInstant_of_isInstant`). An
unsigned word counts as the signed word of its bits. Below `2 ^ 63` that is the count itself; from
there on it is the count less `2 ^ 64`, before 1970, and no longer an instant of the calendar unless
the word is among the last 8334601228800. These are given the number of a date that is not theirs
(`CalendarPart.find_unsigned`).
-/

namespace ReplicaRouter.CalendarPart

/-- `i` is the number of the date at an instant, `offset` seconds east of universal time: of the one
date whose day number is that of the local seconds. -/
def Numbers (part : CalendarPart) (offset seconds i : Int) : Prop :=
  ∃ d : Date, d.Valid ∧ d.toDays = (seconds + offset) / 86400 ∧ part.index d = i

section
variable (part : CalendarPart) (offset : Int) {s : Int64}

theorem findInstant_of_isInstant (h : IsInstant s.toInt) :
    ∃ i, part.Numbers offset s.toInt i ∧ part.findInstant offset s = .ok i := by
  refine ⟨part.index (Date.atInstant offset s.toInt), ?_, if_pos h⟩
  exact ⟨Date.atInstant offset s.toInt, Date.valid_ofDays _, Date.toDays_ofDays _, rfl⟩

theorem findInstant_of_not_isInstant (h : ¬ IsInstant s.toInt) :
    part.findInstant offset s = .error .keyMissing := if_neg h

end

/-- **Where an unsigned count of seconds is read as it is.** It is numbered by its date, or refused
if it is no instant of the calendar, exactly unless it is one of the last 8334601228800 words. Those
are numbered by the date of the count less `2 ^ 64`, although none of them is an instant. -/
theorem find_unsigned (part : CalendarPart) (offset : Int) (v : UInt64) (rest : List Key) :
    let found := part.find offset (.uint v :: rest)
    let numbered (seconds : Int) := ∃ i, part.Numbers offset seconds i ∧ found = .ok i
    let wraps := 2 ^ 64 - 8334601228800 ≤ v.toNat
    ((IsInstant v.toNat → numbered v.toNat) ∧
        (¬ IsInstant v.toNat → found = .error .keyMissing) ↔ ¬ wraps) ∧
      (wraps → ¬ IsInstant v.toNat ∧ numbered (v.toNat - 2 ^ 64)) := by
  intro found numbered wraps
  have hfound : found = part.findInstant offset v.toInt64 := rfl
  rcases Nat.lt_or_ge v.toNat (2 ^ 63) with hv | hv
  · have hword := toInt_toInt64_of_lt hv
    have hwraps : ¬ wraps := by omega
    refine ⟨iff_of_true ⟨fun h => ?_, fun h => ?_⟩ hwraps, fun h => absurd h hwraps⟩
    · exact hword ▸ findInstant_of_isInstant part offset (hword ▸ h)
    · exact findInstant_of_not_isInstant part offset (hword ▸ h)
  · have hword := toInt_toInt64_wrapped hv
    have hlt := v.toNat_lt
    have hnot : ¬ IsInstant v.toNat := by
      unfold IsInstant
      omega
    have hinstant : IsInstant v.toInt64.toInt ↔ wraps := by
      rw [hword]
      unfold IsInstant
      omega
    have hnumbered (h : wraps) : numbered (v.toNat - 2 ^ 64) :=
      hword ▸ findInstant_of_isInstant part offset (hinstant.2 h)
    refine ⟨⟨fun h hw => ?_, fun hw => ⟨fun h => absurd h hnot, fun _ => ?_⟩⟩,
      fun hw => ⟨hnot, hnumbered hw⟩⟩
    · obtain ⟨i, -, hi⟩ := hnumbered hw
      rw [h.2 hnot] at hi
      cases hi
    · exact findInstant_of_not_isInstant part offset fun h => hw (hinstant.1 h)

/-- The greatest word is numbered by the last day of 1969. -/
theorem find_unsigned_greatest :
    find .day 0 [.uint 18446744073709551615] = .ok 19691231 ∧
      ¬ IsInstant (18446744073709551615 : UInt64).toNat := by
  obtain ⟨-, hwraps⟩ := find_unsigned .day 0 18446744073709551615 []
  exact ⟨by decide +kernel, (hwraps (by decide)).1⟩

end ReplicaRouter.CalendarPart
