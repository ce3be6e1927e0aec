import Mathlib.Data.Nat.Log
import ReplicaRouter.Proofs.Shard.Integers
import ReplicaRouter.Shard.Modulo

/-!
# Keys by remainder

Any key has a residue, so a list that is not empty has one too (`Key.residueOfList_ok`), and a valid
modulus, which is below `2 ^ 63`, gives its remainder as it is (`Modulo.find_of_residue`).

Several keys stand for the decimals of their residues, taken as signed words and written one after
another. The text is read as a number again exactly if no residue is negative and the digits of all
of them make an unsigned word (`Key.residue_joined`). That number needs no text: each residue moves
what stands before it by its own digits (`Decimal.appended_eq`). It is reduced by the modulus, and
if there is none the checksum of the text is (`Modulo.find_several`).
-/

namespace ReplicaRouter

/-! ## Remainders -/

/-- The residue of a text: the number of its digits, if it is digits alone and of an unsigned word,
or else its checksum. -/
theorem Key.residue_text (s : String) :
    (Key.text s).residue.toNat =
      if s.toList ≠ [] ∧ Decimal.IsDigits s.toList ∧ Nat.ofDigitChars 10 s.toList 0 < 2 ^ 64 then
        Nat.ofDigitChars 10 s.toList 0
      else (Crc32.checksum (Utf8.encode s)).toNat := by
  rw [residue]
  split
  · rename_i h
    have hword := UInt64.toNat_ofNat_of_lt' h.2.2
    rw [Decimal.readUnsigned?_eq_some_iff.2 ⟨h.1, h.2.1, hword.symm⟩, Option.getD_some, hword]
  · rename_i h
    have hnone : Decimal.readUnsigned? s.toList = none := by
      apply Option.eq_none_iff_forall_ne_some.2
      intro w hw
      obtain ⟨hne, hdigits, hvalue⟩ := Decimal.readUnsigned?_eq_some_iff.1 hw
      exact h ⟨hne, hdigits, hvalue ▸ w.toNat_lt⟩
    rw [hnone, Option.getD_none, UInt32.toNat_toUInt64]

theorem Key.residueOfList_ok {keys : List Key} (hne : keys ≠ []) :
    ∃ r, Key.residueOfList keys = .ok r := by
  rcases keys with _ | ⟨k, _ | ⟨k', rest⟩⟩
  · exact absurd rfl hne
  · exact ⟨_, rfl⟩
  · exact ⟨_, rfl⟩

namespace Modulo

theorem modulus_ne_zero {m : Modulo} (hpos : 0 < m.modulus.toNat) : m.modulus ≠ 0 := by
  intro h
  rw [h] at hpos
  cases hpos

/-- A modulus below `2 ^ 63` gives the remainder itself. -/
theorem find_of_residue {m : Modulo} (hpos : 0 < m.modulus.toNat) (hlt : m.modulus.toNat < 2 ^ 63)
    {keys : List Key} {r : UInt64} (hr : Key.residueOfList keys = .ok r) :
    m.find keys = .ok (r.toNat % m.modulus.toNat : Nat) := by
  have hmod : (r % m.modulus).toNat = r.toNat % m.modulus.toNat := UInt64.toNat_mod ..
  have hsmall : (r % m.modulus).toNat < 2 ^ 63 := by
    rw [hmod]
    exact Nat.lt_trans (Nat.mod_lt _ hpos) hlt
  rw [find, if_neg (modulus_ne_zero hpos), hr, ← hmod, ← toInt_toInt64_of_lt hsmall]
  rfl

section
variable {n : Int64} (hpos : 0 < n.toInt)
include hpos

/-- A positive signed word is a modulus below `2 ^ 63`. -/
theorem toNat_toUInt64_bounds : 0 < n.toUInt64.toNat ∧ n.toUInt64.toNat < 2 ^ 63 := by
  have hn := toNat_toUInt64 (Int.le_of_lt hpos)
  have hlt := n.toInt_lt
  omega

theorem find_nil : find ⟨n.toUInt64⟩ [] = .error .keyMissing := by
  have hne : n.toUInt64 ≠ 0 := modulus_ne_zero (m := ⟨n.toUInt64⟩) (toNat_toUInt64_bounds hpos).1
  rw [find, if_neg hne]
  rfl

theorem find_lt {keys : List Key} (hne : keys ≠ []) :
    ∃ i : Nat, (i : Int) < n.toInt ∧ find ⟨n.toUInt64⟩ keys = .ok i := by
  obtain ⟨r, hr⟩ := Key.residueOfList_ok hne
  obtain ⟨hmod, hsmall⟩ := toNat_toUInt64_bounds hpos
  have hn := toNat_toUInt64 (Int.le_of_lt hpos)
  have hlt := Nat.mod_lt r.toNat hmod
  refine ⟨r.toNat % n.toUInt64.toNat, by omega, ?_⟩
  exact find_of_residue (m := ⟨n.toUInt64⟩) hmod hsmall hr

end

end Modulo

/-! ## Several keys -/

namespace Decimal

theorem length_toDigits (n : Nat) : (Nat.toDigits 10 n).length = Nat.log 10 n + 1 := by
  have hpos : 0 < (Nat.toDigits 10 n).length := Nat.length_toDigits_pos
  apply Nat.le_antisymm
  · apply (Nat.length_toDigits_le_iff (by decide) (Nat.succ_pos _)).2
    exact Nat.lt_pow_succ_log_self (by decide) n
  · by_cases hn : n = 0
    · subst hn
      exact hpos
    · apply Nat.log_lt_of_lt_pow hn
      exact (Nat.length_toDigits_le_iff (by decide) hpos).1 (Nat.le_refl _)

/-- Each number moves what stands before it by its own digits, of which zero has one. -/
theorem appended_eq (n : Nat) (vs : List Nat) :
    appended n vs = vs.foldl (fun n v => n * 10 ^ (Nat.log 10 v + 1) + v) n := by
  simp only [appended, length_toDigits]

theorem flatMap_ofInt_ne_nil {vs : List Int} (hne : vs ≠ []) :
    (vs.flatMap fun v => (ofInt v).toList) ≠ [] := by
  obtain ⟨v, rest, rfl⟩ := List.exists_cons_of_ne_nil hne
  obtain ⟨c, cs, hc, -⟩ := toList_ofInt_eq_cons v
  rw [List.flatMap_cons, hc]
  exact List.cons_ne_nil c _

end Decimal

namespace Key

theorem joined_eq (vs : List Int64) :
    joined vs = String.join ((vs.map Int64.toInt).map Decimal.ofInt) := by
  apply String.toList_inj.1
  rw [toList_joined, String.toList_join, List.flatMap_map (f := Decimal.ofInt)]

/-- The residue of several words written one after another: the number they make, or else the
checksum of their text. -/
theorem residue_joined {vs : List Int64} (hne : vs ≠ []) :
    let number := Decimal.appended 0 ((vs.map Int64.toInt).map Int.natAbs)
    (Key.text (joined vs)).residue.toNat =
      if (∀ v ∈ vs.map Int64.toInt, 0 ≤ v) ∧ number < 2 ^ 64 then number
        else (Crc32.checksum (Utf8.encode (joined vs))).toNat := by
  intro number
  have hints : vs.map Int64.toInt ≠ [] := by simpa using hne
  have hchars := Decimal.flatMap_ofInt_ne_nil hints
  rw [residue_text, toList_joined]
  by_cases hsigns : ∀ v ∈ vs.map Int64.toInt, 0 ≤ v
  · have hdigits := Decimal.isDigits_flatMap_ofInt.2 hsigns
    have hvalue : Nat.ofDigitChars 10
        ((vs.map Int64.toInt).flatMap fun v => (Decimal.ofInt v).toList) 0 = number := by
      rw [Decimal.flatMap_ofInt hsigns, Decimal.ofDigitChars_flatMap]
    rw [hvalue]
    exact if_congr ⟨fun h => ⟨hsigns, h.2.2⟩, fun h => ⟨hchars, hdigits, h.2⟩⟩ rfl rfl
  · rw [if_neg fun h => hsigns (Decimal.isDigits_flatMap_ofInt.1 h.2.1), if_neg fun h => hsigns h.1]

end Key

namespace Modulo

/-- **Several keys by remainder, in closed form.** Their residues count as signed words. If none is
negative and the number of all their digits, one after another, is below `2 ^ 64`, the table is that
number's remainder; in every other case it is the remainder of the checksum of the decimals. -/
theorem find_several {m : Modulo} (hpos : 0 < m.modulus.toNat) (hlt : m.modulus.toNat < 2 ^ 63)
    {keys : List Key} (hkeys : 2 ≤ keys.length) :
    let parts := keys.map fun k => k.residue.toInt64.toInt
    let number := (parts.map Int.natAbs).foldl (fun n p => n * 10 ^ (Nat.log 10 p + 1) + p) 0
    let text := String.join (parts.map Decimal.ofInt)
    m.find keys = .ok (if (∀ p ∈ parts, 0 ≤ p) ∧ number < 2 ^ 64 then number % m.modulus.toNat
      else (Crc32.checksum (Utf8.encode text)).toNat % m.modulus.toNat : Nat) := by
  intro parts number text
  obtain ⟨k, l, rest, rfl⟩ : ∃ k l rest, keys = k :: l :: rest := by
    rcases keys with _ | ⟨k, _ | ⟨l, rest⟩⟩
    · cases hkeys
    · simp at hkeys
    · exact ⟨k, l, rest, rfl⟩
  let words := (k :: l :: rest).map fun k => k.residue.toInt64
  have hparts : words.map Int64.toInt = parts := List.map_map ..
  have hwords : words ≠ [] := List.cons_ne_nil _ _
  have hresidue := Key.residue_joined hwords
  rw [Key.joined_eq, hparts, Decimal.appended_eq] at hresidue
  rw [find_of_residue hpos hlt (r := (Key.text (Key.joined words)).residue) rfl, Key.joined_eq,
    hparts, hresidue]
  split
  · rfl
  · rfl

/-- Three residues whose digits make 12034, and two of which one is negative. -/
theorem find_several_signed :
    (⟨1000⟩ : Modulo).find [.int 12, .uint 0, .text "034"] = .ok 34 ∧
      (⟨1000⟩ : Modulo).find [.int 12, .int (-1)] = .ok 59 := by
  have hpos : 0 < (⟨1000⟩ : Modulo).modulus.toNat := by decide
  have hlt : (⟨1000⟩ : Modulo).modulus.toNat < 2 ^ 63 := by decide
  constructor
  · rw [find_several hpos hlt (by decide)]
    decide +kernel
  · rw [find_several hpos hlt (by decide)]
    decide +kernel

end Modulo

end ReplicaRouter
