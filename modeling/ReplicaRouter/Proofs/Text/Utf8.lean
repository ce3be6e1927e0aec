import ReplicaRouter.Proofs.Numerals

/-!
# Bytes beyond ASCII

A byte beyond ASCII is read as a replacement or as part of a character of several bytes, and both
are beyond ASCII. `Utf8.Partial.Beyond` is what a character begun keeps for that: whatever completes
it, its number is that of a character beyond ASCII (`Utf8.lead_cases`, `Utf8.beyond_continued`). So
what is read as ASCII is ASCII (`Utf8.isAscii_decodeFrom`), and it is the bytes of what is read
(`Utf8.encode_decodeLossy_of_ascii`).
-/

namespace ReplicaRouter.Utf8

open Decimal (IsAscii)

theorem isAscii_append {cs ds : List Char} : IsAscii (cs ++ ds) ↔ IsAscii cs ∧ IsAscii ds :=
  List.forall_mem_append

theorem not_isAscii_replacement (cs : List Char) : ¬ IsAscii (replacement :: cs) := fun h =>
  absurd (h replacement (.head cs)) (by decide)

/-- A number that is no character's would be read as the ASCII character zero. -/
theorem not_isAscii_ofNat {n : Nat} (h : 128 ≤ n) (hvalid : n.isValidChar) :
    ¬ IsAscii [Char.ofNat n] := by
  intro hascii
  have hlt := hascii (Char.ofNat n) (.head [])
  rw [toNat_ofNat_of_isValidChar hvalid] at hlt
  omega

/-! ## Characters begun -/

namespace Partial

/-- The least number that the character can have. -/
def least (p : Partial) : Nat := (p.bits * 64 + (p.low.toNat - 0x80)) * 64 ^ (p.owed - 1)

/-- The number past the greatest that the character can have. -/
def bound (p : Partial) : Nat := (p.bits * 64 + (p.high.toNat - 0x80) + 1) * 64 ^ (p.owed - 1)

/-- The numbers that the character can have are of characters beyond ASCII. -/
structure Beyond (p : Partial) : Prop where
  owed : 1 ≤ p.owed
  ascii : 128 ≤ p.least
  valid : p.bound ≤ 0xD800 ∨ 0xE000 ≤ p.least ∧ p.bound ≤ 0x110000

/-- A byte more is owed, with nothing known of it. -/
theorem least_tail (bits k : Nat) : least { bits, owed := k + 1 } = bits * 64 ^ (k + 1) := by
  have hlow : (0x80 : UInt8).toNat - 0x80 = 0 := by decide
  simp only [least, hlow, Nat.add_sub_cancel]
  rw [Nat.add_zero, Nat.pow_succ', Nat.mul_assoc]

theorem bound_tail (bits k : Nat) : bound { bits, owed := k + 1 } = (bits + 1) * 64 ^ (k + 1) := by
  have hhigh : (0xBF : UInt8).toNat - 0x80 + 1 = 64 := by decide
  simp only [bound, Nat.add_assoc, hhigh, Nat.add_sub_cancel]
  rw [Nat.pow_succ', ← Nat.mul_assoc, Nat.add_mul bits 1 64, Nat.one_mul]

end Partial

/-- Between characters a byte is one, is replaced, or begins one beyond ASCII. -/
theorem lead_cases (b : UInt8) :
    (b.toNat < 128 ∧ lead b = ([Char.ofNat b.toNat], none)) ∨ lead b = ([replacement], none) ∨
      ∃ p : Partial, p.Beyond ∧ lead b = ([], some p) := by
  generalize hlead : lead b = out
  simp only [lead] at hlead
  repeat' split at hlead
  all_goals subst hlead
  case isTrue hascii => exact .inl ⟨hascii, rfl⟩
  any_goals exact .inr (.inl rfl)
  all_goals
    refine .inr (.inr ⟨_, ?_, rfl⟩)
    constructor
    all_goals
      simp only [Partial.least, Partial.bound, UInt8.reduceToNat, Nat.reduceSub, Nat.reducePow]
      omega

section
variable {p : Partial} (hp : p.Beyond) {b : UInt8} (hb : p.low ≤ b ∧ b ≤ p.high)
include hp hb

/-- A byte within the bounds narrows down the numbers that the character can have. -/
theorem beyond_continued (howed : ¬ p.owed ≤ 1) :
    Partial.Beyond { bits := p.bits * 64 + (b.toNat - 0x80), owed := p.owed - 1 } := by
  obtain ⟨k, hk⟩ : ∃ k, p.owed = k + 2 := ⟨p.owed - 2, by omega⟩
  obtain ⟨-, hascii, hvalid⟩ := hp
  have hlow := UInt8.le_iff_toNat_le.1 hb.1
  have hhigh := UInt8.le_iff_toNat_le.1 hb.2
  have hless : p.least ≤ (p.bits * 64 + (b.toNat - 0x80)) * 64 ^ (k + 1) := by
    rw [Partial.least, hk]
    exact Nat.mul_le_mul_right _ (by omega)
  have hmore : (p.bits * 64 + (b.toNat - 0x80) + 1) * 64 ^ (k + 1) ≤ p.bound := by
    rw [Partial.bound, hk]
    exact Nat.mul_le_mul_right _ (by omega)
  rw [show p.owed - 1 = k + 1 by omega]
  constructor
  case owed => exact Nat.succ_pos k
  case ascii =>
    rw [Partial.least_tail]
    exact Nat.le_trans hascii hless
  case valid =>
    rw [Partial.least_tail, Partial.bound_tail]
    omega

/-- The last byte makes a character beyond ASCII. -/
theorem not_isAscii_completed (howed : p.owed ≤ 1) :
    ¬ IsAscii [Char.ofNat (p.bits * 64 + (b.toNat - 0x80))] := by
  obtain ⟨howed', hascii, hvalid⟩ := hp
  have hone : p.owed = 1 := Nat.le_antisymm howed howed'
  have hlow := UInt8.le_iff_toNat_le.1 hb.1
  have hhigh := UInt8.le_iff_toNat_le.1 hb.2
  simp only [Partial.least, Partial.bound, hone, Nat.sub_self, Nat.pow_zero, Nat.mul_one]
    at hascii hvalid
  exact not_isAscii_ofNat (by omega) (by unfold Nat.isValidChar; omega)

end

/-! ## Reading -/

theorem beyond_none : ∀ p ∈ (none : Option Partial), p.Beyond := fun _ h => by cases h

theorem step_ascii {begun : Option Partial} (hbegun : ∀ p ∈ begun, p.Beyond) {b : UInt8}
    (hout : IsAscii (step begun b).1) :
    (begun = none ∧ b.toNat < 128 ∧ (step begun b).2 = none) ∨
      ∃ p : Partial, p.Beyond ∧ (step begun b).2 = some p := by
  cases begun with
  | none =>
    rcases lead_cases b with ⟨hb, hlead⟩ | hlead | ⟨p, hp, hlead⟩
    · exact .inl ⟨rfl, hb, congrArg Prod.snd hlead⟩
    · rw [step, hlead] at hout
      exact absurd hout (not_isAscii_replacement [])
    · exact .inr ⟨p, hp, congrArg Prod.snd hlead⟩
  | some p =>
    have hp := hbegun p rfl
    rw [step] at hout ⊢
    by_cases hb : p.low ≤ b ∧ b ≤ p.high
    · rw [if_pos hb] at hout ⊢
      by_cases howed : p.owed ≤ 1
      · simp only [if_pos howed] at hout
        exact absurd hout (not_isAscii_completed hp hb howed)
      · simp only [if_neg howed]
        exact .inr ⟨_, beyond_continued hp hb howed, rfl⟩
    · rw [if_neg hb] at hout
      exact absurd hout (not_isAscii_replacement _)

theorem decodeFrom_cons (begun : Option Partial) (b : UInt8) (rest : List UInt8) :
    decodeFrom begun (b :: rest) = (step begun b).1 ++ decodeFrom (step begun b).2 rest := by
  cases begun <;> rfl

/-- Only ASCII bytes are read as ASCII, between characters. The induction is on the bytes, for any
character begun, since one that is begun is still to be written or replaced. -/
theorem isAscii_decodeFrom {begun : Option Partial} (hbegun : ∀ p ∈ begun, p.Beyond)
    {bytes : List UInt8} (h : IsAscii (decodeFrom begun bytes)) :
    begun = none ∧ ∀ b ∈ bytes, b.toNat < 128 := by
  induction bytes generalizing begun with
  | nil =>
    cases begun with
    | none => exact ⟨rfl, nofun⟩
    | some p => exact absurd h (not_isAscii_replacement [])
  | cons b rest ih =>
    rw [decodeFrom_cons, isAscii_append] at h
    obtain ⟨hout, hrest⟩ := h
    rcases step_ascii hbegun hout with ⟨hnone, hb, hnext⟩ | ⟨p, hp, hnext⟩
    · rw [hnext] at hrest
      exact ⟨hnone, List.forall_mem_cons.2 ⟨hb, (ih beyond_none hrest).2⟩⟩
    · rw [hnext] at hrest
      cases (ih (fun q hq => Option.some.inj hq ▸ hp) hrest).1

theorem lt_of_isAscii_decodeLossy {bytes : List UInt8} (h : IsAscii (decodeLossy bytes).toList) :
    ∀ b ∈ bytes, b.toNat < 128 := by
  rw [decodeLossy, String.toList_ofList] at h
  exact (isAscii_decodeFrom beyond_none h).2

theorem encode_decodeLossy_of_ascii {bytes : List UInt8} (h : ∀ b ∈ bytes, b.toNat < 128) :
    encode (decodeLossy bytes) = bytes := by
  let cs := bytes.map fun b => Char.ofNat b.toNat
  have hvalue : ∀ b ∈ bytes, (Char.ofNat b.toNat).toNat = b.toNat := fun b hb =>
    toNat_ofNat_of_isValidChar (.inl (Nat.lt_trans (h b hb) (by decide)))
  have hcs : IsAscii cs := by
    intro c hc
    obtain ⟨b, hb, rfl⟩ := List.mem_map.1 hc
    rw [hvalue b hb]
    exact h b hb
  have hbytes : asciiBytes cs = bytes := by
    rw [asciiBytes, List.map_map]
    refine (List.map_congr_left fun b hb => ?_).trans (List.map_id bytes)
    show (Char.ofNat b.toNat).toNat.toUInt8 = b
    rw [hvalue b hb]
    exact UInt8.ofNat_toNat
  have hencode : encode (String.ofList cs) = bytes := by
    rw [encode_of_ascii (by rwa [String.toList_ofList]), String.toList_ofList, hbytes]
  rw [← hencode, decodeLossy_encode_of_ascii (by rwa [String.toList_ofList])]

end ReplicaRouter.Utf8
