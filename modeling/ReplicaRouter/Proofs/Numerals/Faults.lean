import Mathlib.Data.List.Induction
import ReplicaRouter.Proofs.Numerals

/-!
# Where a numeral goes wrong

Digits are read up to the first character with which the text is no number within the limit
(`Decimal.StopsAt`), and that character alone decides the fault (`Decimal.readDigits_error_iff`). A
signed numeral is read so after its sign, against the magnitude that words of that sign reach. Apart
from a text that is empty or a sign alone, that is all that can be wrong with it
(`Decimal.readSigned_error_iff`).
-/

namespace ReplicaRouter.Decimal

/-! ## Digits -/

/-- Digits of a number up to a limit. -/
def Within (limit : Nat) (ds : List Char) : Prop :=
  IsDigits ds ∧ Nat.ofDigitChars 10 ds 0 ≤ limit

/-- The first character of a text with which it is not digits of a number up to the limit, and what
stands before it. -/
structure StopsAt (limit : Nat) (cs before : List Char) (c : Char) : Prop where
  reached : before ++ [c] <+: cs
  within : ∀ ds, ds <+: before → Within limit ds
  stops : ¬ Within limit (before ++ [c])

theorem within_nil (limit : Nat) : Within limit [] := ⟨nofun, Nat.zero_le limit⟩

theorem Within.of_prefix {limit : Nat} {ds cs : List Char} (h : Within limit cs) (hds : ds <+: cs) :
    Within limit ds := by
  obtain ⟨rest, rfl⟩ := hds
  obtain ⟨hdigits, hle⟩ := h
  rw [Nat.ofDigitChars_append] at hle
  exact ⟨(isDigits_append.1 hdigits).1, Nat.le_trans (le_ofDigitChars rest _) hle⟩

theorem StopsAt.append {limit : Nat} {cs before : List Char} {c : Char}
    (h : StopsAt limit cs before c) (more : List Char) : StopsAt limit (cs ++ more) before c :=
  ⟨h.reached.trans (List.prefix_append cs more), h.within, h.stops⟩

/-- A text that is no number up to the limit stops being one somewhere: at its last character, if
what stands before that is one. -/
theorem exists_stopsAt {limit : Nat} {cs : List Char} (h : ¬ Within limit cs) :
    ∃ before c, StopsAt limit cs before c := by
  induction cs using List.reverseRecOn with
  | nil => exact absurd (within_nil limit) h
  | append_singleton ds c ih =>
    by_cases hds : Within limit ds
    · exact ⟨ds, c, List.prefix_rfl, fun _ => hds.of_prefix, h⟩
    · obtain ⟨before, d, hstop⟩ := ih hds
      exact ⟨before, d, hstop.append [c]⟩

theorem readDigits_append {limit : Nat} {past : Fault} (ds cs : List Char) (n : Nat) :
    readDigits limit past n (ds ++ cs) =
      (readDigits limit past n ds).bind fun m => readDigits limit past m cs := by
  induction ds generalizing n with
  | nil => rfl
  | cons d rest ih =>
    simp only [List.cons_append, readDigits]
    cases digit? d with
    | none => rfl
    | some v =>
      dsimp only
      split
      · exact ih _
      · rfl

theorem readDigits_of_within {limit : Nat} {past : Fault} {ds : List Char} (h : Within limit ds) :
    readDigits limit past 0 ds = .ok (Nat.ofDigitChars 10 ds 0) :=
  (readDigits_ok_iff (Nat.zero_le limit)).2 ⟨h.1, rfl, h.2⟩

/-- The fault of the character at which reading stops. -/
theorem readDigits_of_stopsAt {limit : Nat} {past : Fault} {cs before : List Char} {c : Char}
    (h : StopsAt limit cs before c) :
    readDigits limit past 0 cs = .error (if c.isDigit then past else .invalidDigit) := by
  obtain ⟨rest, rfl⟩ := h.reached
  have hbefore := h.within before List.prefix_rfl
  rw [List.append_assoc, readDigits_append, readDigits_of_within hbefore]
  show readDigits limit past (Nat.ofDigitChars 10 before 0) (c :: rest) = _
  cases hc : c.isDigit with
  | false =>
    rw [readDigits, digit?_of_not_isDigit hc]
    rfl
  | true =>
    have hpast : ¬ 10 * Nat.ofDigitChars 10 before 0 + (c.toNat - 48) ≤ limit := fun hle =>
      h.stops ⟨isDigits_append.2 ⟨hbefore.1, List.forall_mem_singleton.2 hc⟩, by
        rwa [Nat.ofDigitChars_append, Nat.ofDigitChars_cons, Nat.ofDigitChars_nil]⟩
    simp only [readDigits, digit?_of_isDigit hc, if_neg hpast, if_true]

theorem readDigits_error_iff {limit : Nat} {past why : Fault} {cs : List Char} :
    readDigits limit past 0 cs = .error why ↔ ∃ before c, StopsAt limit cs before c ∧
      why = if c.isDigit then past else .invalidDigit := by
  refine ⟨fun h => ?_, fun h => ?_⟩
  · have hnot : ¬ Within limit cs := fun hwithin => by
      rw [readDigits_of_within hwithin] at h
      cases h
    obtain ⟨before, c, hstop⟩ := exists_stopsAt hnot
    rw [readDigits_of_stopsAt hstop] at h
    exact ⟨before, c, hstop, (Except.error.inj h).symm⟩
  · obtain ⟨before, c, hstop, rfl⟩ := h
    exact readDigits_of_stopsAt hstop

/-! ## Signed numerals -/

/-- A text after at most one sign. -/
def magnitude : List Char → List Char
  | '-' :: ds => ds
  | '+' :: ds => ds
  | cs => cs

/-- The largest magnitude of a signed word, which is one more below zero than above. -/
def reach (cs : List Char) : Nat := if cs.head? = some '-' then 2 ^ 63 else 2 ^ 63 - 1

/-- The fault of a number past the signed words. -/
def excess (cs : List Char) : Fault := if cs.head? = some '-' then .tooSmall else .tooLarge

/-- What is wrong with a text that is no numeral of a signed word. -/
inductive Faulty (cs : List Char) : Fault → Prop
  | empty (h : cs = []) : Faulty cs .empty
  | sign (h : cs = ['+'] ∨ cs = ['-']) : Faulty cs .invalidDigit
  | digit {before : List Char} {c : Char} (h : StopsAt (reach cs) (magnitude cs) before c)
      (hc : c.isDigit = false) : Faulty cs .invalidDigit
  | excess {before : List Char} {c : Char} (h : StopsAt (reach cs) (magnitude cs) before c)
      (hc : c.isDigit = true) : Faulty cs (excess cs)

theorem not_stopsAt_nil {limit : Nat} {before : List Char} {c : Char} :
    ¬ StopsAt limit [] before c := fun h => by
  simpa using h.reached

theorem magnitude_eq_nil_iff {cs : List Char} :
    magnitude cs = [] ↔ cs = [] ∨ cs = ['+'] ∨ cs = ['-'] := by
  refine ⟨fun h => ?_, fun h => ?_⟩
  · unfold magnitude at h
    split at h
    · subst h; exact .inr (.inr rfl)
    · subst h; exact .inr (.inl rfl)
    · exact .inl h
  · rcases h with rfl | rfl | rfl
    all_goals rfl

/-- If more than a sign is given, the digits after it decide. -/
theorem faulty_iff_of_magnitude {cs : List Char} (hne : magnitude cs ≠ []) {why : Fault} :
    Faulty cs why ↔ readDigits (reach cs) (excess cs) 0 (magnitude cs) = .error why := by
  rw [readDigits_error_iff]
  refine ⟨fun h => ?_, fun h => ?_⟩
  · cases h with
    | empty h => exact absurd (magnitude_eq_nil_iff.2 (.inl h)) hne
    | sign h => exact absurd (magnitude_eq_nil_iff.2 (.inr h)) hne
    | digit h hc => exact ⟨_, _, h, by rw [hc]; rfl⟩
    | excess h hc => exact ⟨_, _, h, by rw [hc]; rfl⟩
  · obtain ⟨before, c, hstop, rfl⟩ := h
    cases hc : c.isDigit with
    | false => exact .digit hstop hc
    | true => exact .excess hstop hc

theorem map_error_iff {α β : Type} {x : Except Fault α} {f : α → β} {why : Fault} :
    x.map f = .error why ↔ x = .error why := by
  cases x <;> simp [Except.map]

theorem readSigned_of_magnitude {cs : List Char} (hne : magnitude cs ≠ []) :
    ∃ word : Nat → Int64,
      readSigned cs = (readDigits (reach cs) (excess cs) 0 (magnitude cs)).map word := by
  rcases cs with _ | ⟨c, ds⟩
  · exact absurd rfl hne
  by_cases hm : c = '-'
  · subst hm
    exact ⟨_, readSigned_minus hne⟩
  by_cases hp : c = '+'
  · subst hp
    exact ⟨_, readSigned_plus hne⟩
  · have hplain : magnitude (c :: ds) = c :: ds := by
      unfold magnitude
      split <;> simp_all
    have hhead : (c :: ds).head? ≠ some '-' := fun h => hm (Option.some.inj h)
    rw [hplain, reach, excess, if_neg hhead, if_neg hhead]
    exact ⟨_, readSigned_plain hp hm⟩

/-- **Why a text is no signed word.** Nothing can be wrong with it but that it is empty, a sign
alone, or stopped by a character after its sign. -/
theorem readSigned_error_iff {cs : List Char} {why : Fault} :
    readSigned cs = .error why ↔ Faulty cs why := by
  by_cases hne : magnitude cs = []
  · refine ⟨fun h => ?_, fun h => ?_⟩
    · rcases magnitude_eq_nil_iff.1 hne with rfl | rfl | rfl
      · cases h; exact .empty rfl
      · cases h; exact .sign (.inl rfl)
      · cases h; exact .sign (.inr rfl)
    · cases h with
      | empty h => subst h; rfl
      | sign h => rcases h with rfl | rfl <;> rfl
      | digit h => exact absurd (hne ▸ h) not_stopsAt_nil
      | excess h => exact absurd (hne ▸ h) not_stopsAt_nil
  · obtain ⟨word, hword⟩ := readSigned_of_magnitude hne
    rw [hword, map_error_iff, faulty_iff_of_magnitude hne]

end ReplicaRouter.Decimal
