import ReplicaRouter.Proofs.Numerals.Faults
import ReplicaRouter.Proofs.Shard.Remainders
import ReplicaRouter.Proofs.Text.Utf8

/-!
# Texts and bytes as numbers

A text is its own residue exactly if it is digits of an unsigned word (`Key.residue_text`), and has
a number exactly if it is a numeral of a signed word (`Key.ReadsAs.number_ok_iff`). Every other text
is refused for what is wrong with it (`Key.ReadsAs.number_error_iff`). Bytes are read as a text
first. Only ASCII is read as ASCII, so bytes with a number are those of a numeral
(`Key.encode_of_number`).
-/

namespace ReplicaRouter.Key

/-- A key that is read for the number of a text: that text, or bytes with its lossy reading. -/
inductive ReadsAs : Key → String → Prop
  | text (s : String) : ReadsAs (.text s) s
  | bytes (b : List UInt8) : ReadsAs (.bytes b) (Utf8.decodeLossy b)

section
variable {k : Key} {s : String} (h : k.ReadsAs s)
include h

theorem ReadsAs.number : k.number = numberOfText s := by
  cases h with
  | text => rfl
  | bytes => rfl

theorem ReadsAs.number_ok_iff {n : Int} :
    (∃ v, k.number = .ok v ∧ v.toInt = n) ↔
      Decimal.Spells s.toList n ∧ -2 ^ 63 ≤ n ∧ n < 2 ^ 63 := by
  rw [h.number]
  refine ⟨fun hread => ?_, fun hspells => ?_⟩
  · obtain ⟨v, hv, rfl⟩ := hread
    exact ⟨numberOfText_ok_iff.1 hv, v.le_toInt, v.toInt_lt⟩
  · obtain ⟨hs, hlow, hhigh⟩ := hspells
    have hword := Int64.toInt_ofInt_of_le hlow hhigh
    exact ⟨Int64.ofInt n, numberOfText_ok_iff.2 (hword.symm ▸ hs), hword⟩

theorem ReadsAs.number_error_iff {e : LookupError} :
    k.number = .error e ↔
      ∃ why, Decimal.Faulty s.toList why ∧ e = .malformed (.notInteger s why) := by
  rw [h.number, numberOfText]
  refine ⟨fun hread => ?_, fun hfaulty => ?_⟩
  · cases hr : Decimal.readSigned s.toList with
    | ok v => rw [hr] at hread; cases hread
    | error why =>
      rw [hr] at hread
      exact ⟨why, Decimal.readSigned_error_iff.1 hr, (Except.error.inj hread).symm⟩
  · obtain ⟨why, hwhy, rfl⟩ := hfaulty
    rw [Decimal.readSigned_error_iff.2 hwhy]
    rfl

end

/-- Bytes with a number are ASCII, and the bytes of a numeral. -/
theorem encode_of_number {b : List UInt8} {v : Int64} (h : (Key.bytes b).number = .ok v) :
    Utf8.encode (Utf8.decodeLossy b) = b ∧ ∀ x ∈ b, x.toNat < 128 := by
  have hspells : Decimal.Spells (Utf8.decodeLossy b).toList v.toInt := numberOfText_ok_iff.1 h
  have hascii := Utf8.lt_of_isAscii_decodeLossy hspells.isAscii
  exact ⟨Utf8.encode_decodeLossy_of_ascii hascii, hascii⟩

/-- **What is read as a number.** The residue of a text is the number of its digits, if it is
nothing but digits of an unsigned word, or else its checksum. Its number is the signed word that it
spells. If it spells none it is refused: for being empty or a sign alone, or for the first character
after its sign that is no digit or takes it past the signed words. Bytes are read as their lossy
text, but those that are not UTF-8 or not ASCII have no number. -/
theorem read_numerals :
    (∀ s : String, (Key.text s).residue.toNat =
      if s.toList ≠ [] ∧ Decimal.IsDigits s.toList ∧ Nat.ofDigitChars 10 s.toList 0 < 2 ^ 64 then
        Nat.ofDigitChars 10 s.toList 0
      else (Crc32.checksum (Utf8.encode s)).toNat) ∧
    (∀ {k : Key} {s : String}, k.ReadsAs s →
      (∀ n : Int, (∃ v, k.number = .ok v ∧ v.toInt = n) ↔
        Decimal.Spells s.toList n ∧ -2 ^ 63 ≤ n ∧ n < 2 ^ 63) ∧
      ∀ e, k.number = .error e ↔
        ∃ why, Decimal.Faulty s.toList why ∧ e = .malformed (.notInteger s why)) ∧
    ∀ b : List UInt8, (∀ s, b ≠ Utf8.encode s) ∨ (∃ x ∈ b, 128 ≤ x.toNat) →
      ∀ v, (Key.bytes b).number ≠ .ok v := by
  refine ⟨residue_text, fun hk => ⟨fun n => hk.number_ok_iff, fun e => hk.number_error_iff⟩,
    fun b hb v hv => ?_⟩
  obtain ⟨hencode, hascii⟩ := encode_of_number hv
  rcases hb with hb | hb
  · exact hb _ hencode.symm
  · obtain ⟨x, hx, hlarge⟩ := hb
    exact absurd (hascii x hx) (Nat.not_lt.2 hlarge)

/-- The nineteenth digit takes a text past the signed words, and what stands behind it is not looked
at. A digit and half a character are no number. -/
theorem read_numerals_stopped :
    (Key.text "007").residue.toNat = 7 ∧
      (Key.text "+7").residue.toNat = (Crc32.checksum (Utf8.encode "+7")).toNat ∧
      (∃ v, (Key.bytes [45, 57]).number = .ok v ∧ v.toInt = -9) ∧
      (Key.text "9223372036854775808x").number =
        .error (.malformed (.notInteger "9223372036854775808x" .tooLarge)) ∧
      ∀ v, (Key.bytes [55, 0xC3]).number ≠ .ok v := by
  obtain ⟨hresidue, hnumber, hbytes⟩ := read_numerals
  have hnine : Decimal.Spells ['-', '9'] (-9) := .minus (by decide) (by decide)
  have hlarge : Decimal.Faulty "9223372036854775808x".toList .tooLarge := by
    have hbefore : Decimal.Within (2 ^ 63 - 1) "922337203685477580".toList :=
      ⟨by decide, by decide⟩
    have hstop : Decimal.StopsAt (2 ^ 63 - 1) "9223372036854775808x".toList
        "922337203685477580".toList '8' :=
      ⟨by decide, fun _ => hbefore.of_prefix, fun h => absurd h.2 (by decide)⟩
    exact .excess hstop rfl
  refine ⟨?_, ?_, ?_, ?_, ?_⟩
  · rw [hresidue, if_pos (by decide)]
    decide
  · rw [hresidue, if_neg (by decide)]
  · exact ((hnumber (.bytes [45, 57])).1 (-9)).2 ⟨hnine, by decide, by decide⟩
  · exact ((hnumber (.text _)).2 _).2 ⟨_, hlarge, rfl⟩
  · exact hbytes [55, 0xC3] (.inr ⟨0xC3, by decide, by decide⟩)

end ReplicaRouter.Key
