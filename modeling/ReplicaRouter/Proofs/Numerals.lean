import Mathlib.Algebra.Order.Ring.Int
import ReplicaRouter.Decimal
import ReplicaRouter.Text.Utf8

/-!
# Numerals

`Decimal.Spells cs v`: the text `cs` is a numeral of `v`, digits after at most one sign. Reading
accepts the numerals of the signed words and no other text (`readSigned_ok_iff`); writing spells
what is written (`spells_ofInt`). Of numerals written one after another, the whole is a numeral
exactly if no sign stands inside it (`spells_flatMap_iff`). The bytes of a numeral are those of its
characters, and are read back (`Utf8.decodeLossy_encode_of_ascii`).
-/

namespace ReplicaRouter

/-! ## Words -/

theorem toInt_toInt64_of_lt {w : UInt64} (h : w.toNat < 2 ^ 63) : w.toInt64.toInt = w.toNat :=
  BitVec.toInt_eq_toNat_of_lt (show 2 * w.toNat < 2 ^ 64 by omega)

/-- An unsigned word from `2 ^ 63` on counts as itself less `2 ^ 64`. -/
theorem toInt_toInt64_wrapped {w : UInt64} (h : 2 ^ 63 ≤ w.toNat) :
    w.toInt64.toInt = w.toNat - 2 ^ 64 :=
  (BitVec.toInt_eq_toNat_cond w.toBitVec).trans (if_neg (show ¬ 2 * w.toNat < 2 ^ 64 by omega))

theorem toInt_toInt64_of_le {w : UInt64} (h : 2 ^ 63 ≤ w.toNat) : w.toInt64.toInt < 0 := by
  have := w.toNat_lt
  rw [toInt_toInt64_wrapped h]
  omega

theorem toNat_toUInt64 {n : Int64} (h : 0 ≤ n.toInt) : (n.toUInt64.toNat : Int) = n.toInt := by
  rw [Int64.toNat_toUInt64_of_le (Int64.le_iff_toInt_le.2 h), Int64.toNatClampNeg,
    Int.toNat_of_nonneg h]

namespace Decimal

/-! ## Digits -/

def IsDigits (cs : List Char) : Prop := ∀ c ∈ cs, c.isDigit = true

instance (cs : List Char) : Decidable (IsDigits cs) :=
  decidable_of_iff (cs.all Char.isDigit = true) List.all_eq_true

theorem isDigits_cons {c : Char} {cs : List Char} :
    IsDigits (c :: cs) ↔ c.isDigit = true ∧ IsDigits cs := List.forall_mem_cons

theorem isDigits_append {cs ds : List Char} :
    IsDigits (cs ++ ds) ↔ IsDigits cs ∧ IsDigits ds := List.forall_mem_append

theorem isDigits_toDigits (n : Nat) : IsDigits (Nat.toDigits 10 n) :=
  fun _ => Nat.isDigit_of_mem_toDigits (by decide) (by decide)

theorem digit?_of_isDigit {c : Char} (h : c.isDigit = true) : digit? c = some (c.toNat - 48) := by
  obtain ⟨h1, h2⟩ := Char.isDigit_iff_toNat.1 h
  exact if_pos ⟨h1, h2⟩

theorem digit?_of_not_isDigit {c : Char} (h : c.isDigit = false) : digit? c = none := by
  refine if_neg fun ⟨h1, h2⟩ => ?_
  rw [Char.isDigit_iff_toNat.2 ⟨h1, h2⟩] at h
  cases h

theorem le_ofDigitChars (cs : List Char) (n : Nat) : n ≤ Nat.ofDigitChars 10 cs n := by
  rw [Nat.ofDigitChars_eq_ofDigitChars_zero]
  have : 1 * n ≤ 10 ^ cs.length * n := Nat.mul_le_mul_right n (Nat.one_le_pow _ _ (by decide))
  omega

theorem ofDigitChars_lt {cs : List Char} (h : IsDigits cs) :
    Nat.ofDigitChars 10 cs 0 < 10 ^ cs.length := by
  induction cs with
  | nil => simp
  | cons c rest ih =>
    obtain ⟨hc, hrest⟩ := isDigits_cons.1 h
    have hdigit : c.toNat - 48 ≤ 9 := by
      have := (Char.isDigit_iff_toNat.1 hc).2
      simp at this
      omega
    have hcons : Nat.ofDigitChars 10 (c :: rest) 0 =
        Nat.ofDigitChars 10 rest (10 * 0 + (c.toNat - 48)) := Nat.ofDigitChars_cons
    calc Nat.ofDigitChars 10 (c :: rest) 0
        = 10 ^ rest.length * (c.toNat - 48) + Nat.ofDigitChars 10 rest 0 := by
          rw [hcons, Nat.ofDigitChars_eq_ofDigitChars_zero, Nat.mul_zero, Nat.zero_add]
      _ < 10 ^ rest.length * 9 + 10 ^ rest.length :=
          Nat.add_lt_add_of_le_of_lt (Nat.mul_le_mul_left _ hdigit) (ih hrest)
      _ = 10 ^ (c :: rest).length := by rw [List.length_cons, Nat.pow_succ]; omega

/-- Reading digits succeeds on digits alone, with their value, if that is within the limit: a prefix
never spells more than the whole. -/
theorem readDigits_ok_iff {limit : Nat} {past : Fault} {cs : List Char} {n m : Nat}
    (hn : n ≤ limit) : readDigits limit past n cs = .ok m ↔
      IsDigits cs ∧ Nat.ofDigitChars 10 cs n = m ∧ m ≤ limit := by
  induction cs generalizing n with
  | nil =>
    simp only [readDigits, IsDigits, Nat.ofDigitChars_nil, Except.ok.injEq]
    exact ⟨fun h => ⟨nofun, h, h ▸ hn⟩, fun h => h.2.1⟩
  | cons c rest ih =>
    cases hc : c.isDigit with
    | false => simp [readDigits, digit?_of_not_isDigit hc, isDigits_cons, hc]
    | true =>
      have hcons : Nat.ofDigitChars 10 (c :: rest) n =
          Nat.ofDigitChars 10 rest (10 * n + (c.toNat - 48)) := Nat.ofDigitChars_cons
      simp only [readDigits, digit?_of_isDigit hc, isDigits_cons, hc, true_and, hcons]
      by_cases hle : 10 * n + (c.toNat - 48) ≤ limit
      · rw [if_pos hle, ih hle]
      · rw [if_neg hle]
        have := le_ofDigitChars rest (10 * n + (c.toNat - 48))
        exact ⟨nofun, fun ⟨_, h1, h2⟩ => by omega⟩

/-- Reading digits alone accepts the numerals of the unsigned words, and gives the word. -/
theorem readUnsigned?_eq_some_iff {cs : List Char} {v : UInt64} :
    readUnsigned? cs = some v ↔
      cs ≠ [] ∧ IsDigits cs ∧ Nat.ofDigitChars 10 cs 0 = v.toNat := by
  unfold readUnsigned?
  cases hempty : cs.isEmpty with
  | true =>
    obtain rfl := List.isEmpty_iff.1 hempty
    simp
  | false =>
    have hne : cs ≠ [] := by rintro rfl; cases hempty
    have hlt := v.toNat_lt
    have hiff : ∀ m, readDigits (UInt64.size - 1) .tooLarge 0 cs = .ok m ↔
        IsDigits cs ∧ Nat.ofDigitChars 10 cs 0 = m ∧ m ≤ UInt64.size - 1 :=
      fun m => readDigits_ok_iff (Nat.zero_le _)
    simp only [Bool.false_eq_true, if_false]
    constructor
    · intro h
      cases hr : readDigits (UInt64.size - 1) .tooLarge 0 cs with
      | error why => rw [hr] at h; cases h
      | ok n =>
        rw [hr] at h
        obtain rfl := Option.some.inj h
        obtain ⟨hd, rfl, hle⟩ := (hiff n).1 hr
        refine ⟨hne, hd, (UInt64.toNat_ofNat_of_lt' ?_).symm⟩
        exact Nat.lt_of_le_of_lt hle (by decide)
    · rintro ⟨-, hd, hv⟩
      have hr := (hiff v.toNat).2 ⟨hd, hv, Nat.le_sub_one_of_lt hlt⟩
      rw [hr]
      exact congrArg some UInt64.ofNat_toNat

/-! ## Signed numerals -/

inductive Spells : List Char → Int → Prop
  | plain {ds : List Char} (hne : ds ≠ []) (hd : IsDigits ds) :
      Spells ds (Nat.ofDigitChars 10 ds 0)
  | plus {ds : List Char} (hne : ds ≠ []) (hd : IsDigits ds) :
      Spells ('+' :: ds) (Nat.ofDigitChars 10 ds 0)
  | minus {ds : List Char} (hne : ds ≠ []) (hd : IsDigits ds) :
      Spells ('-' :: ds) (-(Nat.ofDigitChars 10 ds 0))

theorem not_isDigits_sign {c : Char} {ds : List Char} (hc : c = '+' ∨ c = '-') :
    ¬ IsDigits (c :: ds) := by
  rw [isDigits_cons]
  rcases hc with rfl | rfl <;> exact fun h => by cases h.1

theorem Spells.unique {cs : List Char} {v w : Int} (hv : Spells cs v) (hw : Spells cs w) :
    v = w := by
  cases hv with
  | plain hne hd =>
    cases hw with
    | plain => rfl
    | plus => exact absurd hd (not_isDigits_sign (.inl rfl))
    | minus => exact absurd hd (not_isDigits_sign (.inr rfl))
  | plus hne hd =>
    cases hw with
    | plain _ hd' => exact absurd hd' (not_isDigits_sign (.inl rfl))
    | plus => rfl
  | minus hne hd =>
    cases hw with
    | plain _ hd' => exact absurd hd' (not_isDigits_sign (.inr rfl))
    | minus => rfl

theorem map_ok_iff {α β : Type} {x : Except Fault α} {f : α → β} {b : β} :
    x.map f = .ok b ↔ ∃ a, x = .ok a ∧ f a = b := by
  cases x <;> simp [Except.map]

theorem readSigned_minus {ds : List Char} (hne : ds ≠ []) :
    readSigned ('-' :: ds) =
      (readDigits 0x8000000000000000 .tooSmall 0 ds).map fun n : Nat => Int64.ofInt (-n) := by
  cases ds with
  | nil => exact absurd rfl hne
  | cons => rfl

theorem readSigned_plus {ds : List Char} (hne : ds ≠ []) :
    readSigned ('+' :: ds) =
      (readDigits 0x7fffffffffffffff .tooLarge 0 ds).map fun n : Nat => Int64.ofInt n := by
  cases ds with
  | nil => exact absurd rfl hne
  | cons => rfl

theorem readSigned_plain {c : Char} {ds : List Char} (hp : c ≠ '+') (hm : c ≠ '-') :
    readSigned (c :: ds) =
      (readDigits 0x7fffffffffffffff .tooLarge 0 (c :: ds)).map fun n : Nat => Int64.ofInt n := by
  unfold readSigned
  split <;> simp_all

/-- Digits read as a word, if the limit is where the words end. -/
theorem word_ok_iff {limit : Nat} {past : Fault} {word : Nat → Int}
    (hword : ∀ n, n ≤ limit ↔ -2 ^ 63 ≤ word n ∧ word n < 2 ^ 63) {ds : List Char} {v : Int64} :
    ((readDigits limit past 0 ds).map fun n => Int64.ofInt (word n)) = .ok v ↔
      IsDigits ds ∧ word (Nat.ofDigitChars 10 ds 0) = v.toInt := by
  rw [map_ok_iff]
  constructor
  · rintro ⟨n, h, rfl⟩
    obtain ⟨hd, rfl, hle⟩ := (readDigits_ok_iff (Nat.zero_le _)).1 h
    obtain ⟨h1, h2⟩ := (hword _).1 hle
    exact ⟨hd, (Int64.toInt_ofInt_of_le h1 h2).symm⟩
  · rintro ⟨hd, hv⟩
    have hle := (hword (Nat.ofDigitChars 10 ds 0)).2 (hv ▸ ⟨v.le_toInt, v.toInt_lt⟩)
    exact ⟨_, (readDigits_ok_iff (Nat.zero_le _)).2 ⟨hd, rfl, hle⟩, by rw [hv, v.ofInt_toInt]⟩

theorem unsigned_ok_iff {ds : List Char} {v : Int64} :
    ((readDigits 0x7fffffffffffffff .tooLarge 0 ds).map fun n : Nat => Int64.ofInt n) = .ok v ↔
      IsDigits ds ∧ (Nat.ofDigitChars 10 ds 0 : Int) = v.toInt :=
  word_ok_iff fun n => by omega

theorem negated_ok_iff {ds : List Char} {v : Int64} :
    ((readDigits 0x8000000000000000 .tooSmall 0 ds).map fun n : Nat => Int64.ofInt (-n)) = .ok v ↔
      IsDigits ds ∧ -(Nat.ofDigitChars 10 ds 0 : Int) = v.toInt :=
  word_ok_iff fun n => by omega

/-- Reading accepts the numerals of the signed words, and gives the word. -/
theorem readSigned_ok_iff {cs : List Char} {v : Int64} :
    readSigned cs = .ok v ↔ Spells cs v.toInt := by
  constructor
  · intro h
    rcases cs with _ | ⟨c, ds⟩
    · cases h
    by_cases hm : c = '-'
    · subst hm
      have hne : ds ≠ [] := by rintro rfl; cases h
      rw [readSigned_minus hne, negated_ok_iff] at h
      exact h.2 ▸ .minus hne h.1
    by_cases hp : c = '+'
    · subst hp
      have hne : ds ≠ [] := by rintro rfl; cases h
      rw [readSigned_plus hne, unsigned_ok_iff] at h
      exact h.2 ▸ .plus hne h.1
    · rw [readSigned_plain hp hm, unsigned_ok_iff] at h
      exact h.2 ▸ .plain (List.cons_ne_nil c ds) h.1
  · intro h
    generalize hv : v.toInt = w at h
    cases h with
    | @plain ds hne hd =>
      obtain ⟨c, rest, rfl⟩ := List.exists_cons_of_ne_nil hne
      rw [readSigned_plain, unsigned_ok_iff]
      · exact ⟨hd, hv.symm⟩
      · rintro rfl; exact not_isDigits_sign (.inl rfl) hd
      · rintro rfl; exact not_isDigits_sign (.inr rfl) hd
    | plus hne hd => rw [readSigned_plus hne, unsigned_ok_iff]; exact ⟨hd, hv.symm⟩
    | minus hne hd => rw [readSigned_minus hne, negated_ok_iff]; exact ⟨hd, hv.symm⟩

/-! ## Written numerals -/

theorem toList_ofInt (v : Int) :
    (ofInt v).toList = (if v < 0 then ['-'] else []) ++ Nat.toDigits 10 v.natAbs := by
  cases v with
  | ofNat n => simp [ofInt, ofNat]
  | negSucc n => simp [ofInt, ofNat, Int.negSucc_lt_zero]

theorem toDigits_ne_zero_cons {n : Nat} (h : 0 < n) (ds : List Char) :
    Nat.toDigits 10 n ≠ '0' :: ds := by
  induction n using Nat.strongRecOn generalizing ds with
  | ind n ih =>
    rw [Nat.toDigits_eq_if (by decide)]
    split
    · rename_i hlt
      have hdigit : ∀ n < 10, n.digitChar = '0' → n = 0 := by decide
      intro heq
      have := hdigit n hlt (List.cons.inj heq).1
      omega
    · intro heq
      -- The first digit is that of the tenth part, which is positive too.
      obtain ⟨c, cs, hc⟩ := List.exists_cons_of_ne_nil (Nat.toDigits_ne_nil (n := n / 10) (b := 10))
      rw [hc, List.cons_append] at heq
      obtain ⟨rfl, -⟩ := List.cons.inj heq
      exact ih (n / 10) (by omega) (by omega) cs hc

/-- A decimal starts with a digit, which is a zero only in that of zero. -/
theorem toDigits_eq_cons (n : Nat) :
    ∃ c ds, Nat.toDigits 10 n = c :: ds ∧ c.isDigit = true ∧ (0 < n → c ≠ '0') := by
  obtain ⟨c, ds, hc⟩ := List.exists_cons_of_ne_nil (Nat.toDigits_ne_nil (n := n) (b := 10))
  refine ⟨c, ds, hc, isDigits_toDigits n c (hc ▸ .head ds), ?_⟩
  rintro hn rfl
  exact toDigits_ne_zero_cons hn ds hc

theorem toList_ofInt_eq_cons (v : Int) :
    ∃ c cs, (ofInt v).toList = c :: cs ∧ (c = '-' ∨ c.isDigit = true) := by
  obtain ⟨c, ds, hc, hdigit, -⟩ := toDigits_eq_cons v.natAbs
  rw [toList_ofInt, hc]
  split
  · exact ⟨'-', c :: ds, rfl, .inl rfl⟩
  · exact ⟨c, ds, rfl, .inr hdigit⟩

theorem spells_ofInt (v : Int) : Spells (ofInt v).toList v := by
  rw [toList_ofInt]
  split
  · rename_i h
    have := Spells.minus Nat.toDigits_ne_nil (isDigits_toDigits v.natAbs)
    rwa [Nat.ofDigitChars_ten_toDigits, show -(v.natAbs : Int) = v by omega] at this
  · rename_i h
    have := Spells.plain Nat.toDigits_ne_nil (isDigits_toDigits v.natAbs)
    rwa [Nat.ofDigitChars_ten_toDigits, show (v.natAbs : Int) = v by omega] at this

theorem ofInt_injective : Function.Injective ofInt := fun v w h =>
  (spells_ofInt v).unique (h ▸ spells_ofInt w)

/-! ## Numerals one after another -/

/-- The number whose decimals are those of `n` and then those of the others. -/
def appended (n : Nat) (vs : List Nat) : Nat :=
  vs.foldl (fun n v => n * 10 ^ (Nat.toDigits 10 v).length + v) n

/-- The integer whose numeral is made of the numerals of several, one after another. There is none
if a sign would stand inside it. -/
def juxtaposed? : List Int → Option Int
  | [] => none
  | v :: rest =>
    if ∀ w ∈ rest, 0 ≤ w then
      let n := appended v.natAbs (rest.map Int.natAbs)
      some (if v < 0 then -n else n)
    else none

theorem ofDigitChars_flatMap (vs : List Nat) (n : Nat) :
    Nat.ofDigitChars 10 (vs.flatMap (Nat.toDigits 10)) n = appended n vs := by
  induction vs generalizing n with
  | nil => rfl
  | cons v rest ih =>
    rw [List.flatMap_cons, Nat.ofDigitChars_append, ih, Nat.ofDigitChars_eq_ofDigitChars_zero,
      Nat.ofDigitChars_ten_toDigits, Nat.mul_comm]
    rfl

theorem flatMap_ofInt {vs : List Int} (h : ∀ v ∈ vs, 0 ≤ v) :
    (vs.flatMap fun v => (ofInt v).toList) = (vs.map Int.natAbs).flatMap (Nat.toDigits 10) := by
  rw [List.flatMap_map]
  refine congrArg List.flatten (List.map_congr_left fun v hv => ?_)
  rw [toList_ofInt, if_neg (by have := h v hv; omega), List.nil_append]

theorem isDigits_flatMap (vs : List Nat) : IsDigits (vs.flatMap (Nat.toDigits 10)) := by
  intro c hc
  obtain ⟨v, -, hv⟩ := List.mem_flatMap.1 hc
  exact isDigits_toDigits v c hv

/-- Integers written one after another are digits alone unless one of them brings its sign. -/
theorem isDigits_flatMap_ofInt {vs : List Int} :
    IsDigits (vs.flatMap fun v => (ofInt v).toList) ↔ ∀ v ∈ vs, 0 ≤ v := by
  constructor
  · intro h v hv
    apply Int.not_lt.1
    intro hneg
    have hsign : '-' ∈ (ofInt v).toList := by
      rw [toList_ofInt, if_pos hneg]
      exact .head _
    cases h '-' (List.mem_flatMap.2 ⟨v, hv, hsign⟩)
  · intro h
    rw [flatMap_ofInt h]
    exact isDigits_flatMap _

/-- A sign stands nowhere but in front. -/
theorem Spells.isDigits_tail {c : Char} {cs : List Char} {v : Int} (h : Spells (c :: cs) v) :
    IsDigits cs := by
  cases h with
  | plain _ hd => exact (isDigits_cons.1 hd).2
  | plus _ hd => exact hd
  | minus _ hd => exact hd

theorem spells_flatMap_iff {vs : List Int} {w : Int} :
    Spells (vs.flatMap fun v => (ofInt v).toList) w ↔ juxtaposed? vs = some w := by
  rcases vs with _ | ⟨v, rest⟩
  · simp only [juxtaposed?, List.flatMap_nil]
    exact ⟨fun h => by cases h; contradiction, nofun⟩
  rw [List.flatMap_cons, juxtaposed?]
  split
  · rename_i hrest
    have hspells : Spells ((ofInt v).toList ++ rest.flatMap fun v => (ofInt v).toList)
        (if v < 0 then -(appended v.natAbs (rest.map Int.natAbs) : Int)
          else appended v.natAbs (rest.map Int.natAbs)) := by
      have hd : IsDigits (Nat.toDigits 10 v.natAbs ++
          (rest.map Int.natAbs).flatMap (Nat.toDigits 10)) :=
        isDigits_append.2 ⟨isDigits_toDigits _, isDigits_flatMap _⟩
      have hne : Nat.toDigits 10 v.natAbs ++
          (rest.map Int.natAbs).flatMap (Nat.toDigits 10) ≠ [] := by simp
      have hval : Nat.ofDigitChars 10 (Nat.toDigits 10 v.natAbs ++
          (rest.map Int.natAbs).flatMap (Nat.toDigits 10)) 0 =
            appended v.natAbs (rest.map Int.natAbs) := by
        rw [Nat.ofDigitChars_append, Nat.ofDigitChars_ten_toDigits, ofDigitChars_flatMap]
      rw [toList_ofInt, flatMap_ofInt hrest, List.append_assoc, ← hval]
      split
      · exact .minus hne hd
      · exact .plain hne hd
    constructor
    · exact fun h => congrArg some (hspells.unique h)
    · exact fun h => Option.some.inj h ▸ hspells
  · rename_i hrest
    refine ⟨fun h => absurd h ?_, nofun⟩
    obtain ⟨c, cs, hc, -⟩ := toList_ofInt_eq_cons v
    rw [hc, List.cons_append]
    exact fun h => hrest (isDigits_flatMap_ofInt.1 (isDigits_append.1 h.isDigits_tail).2)

/-! ## Numerals as bytes -/

def IsAscii (cs : List Char) : Prop := ∀ c ∈ cs, c.toNat < 128

theorem IsDigits.isAscii {cs : List Char} (h : IsDigits cs) : IsAscii cs := by
  intro c hc
  have := (Char.isDigit_iff_toNat.1 (h c hc)).2
  simp at this
  omega

theorem Spells.isAscii {cs : List Char} {v : Int} (h : Spells cs v) : IsAscii cs := by
  cases h with
  | plain _ hd => exact hd.isAscii
  | plus _ hd => exact List.forall_mem_cons.2 ⟨by decide, hd.isAscii⟩
  | minus _ hd => exact List.forall_mem_cons.2 ⟨by decide, hd.isAscii⟩

end Decimal

namespace Utf8

open Decimal (IsAscii)

theorem encodeChar_of_ascii {c : Char} (h : c.toNat < 128) :
    String.utf8EncodeChar c = [c.toNat.toUInt8] :=
  String.utf8EncodeChar_eq_singleton
    (Char.utf8Size_eq_one_iff.2 (UInt32.le_iff_toNat_le.2 (Nat.le_of_lt_succ h)))

def asciiBytes (cs : List Char) : List UInt8 := cs.map fun c => c.toNat.toUInt8

theorem encode_of_ascii {s : String} (h : IsAscii s.toList) : encode s = asciiBytes s.toList := by
  have hflat : ∀ cs : List Char, IsAscii cs → cs.flatMap String.utf8EncodeChar = asciiBytes cs := by
    intro cs hcs
    induction cs with
    | nil => rfl
    | cons c rest ih =>
      obtain ⟨hc, hrest⟩ := List.forall_mem_cons.1 hcs
      rw [List.flatMap_cons, encodeChar_of_ascii hc, ih hrest]
      rfl
  exact hflat s.toList h

theorem toNat_ofNat_of_isValidChar {n : Nat} (h : n.isValidChar) : (Char.ofNat n).toNat = n := by
  rw [Char.ofNat, dif_pos h]
  rfl

theorem lead_of_ascii {c : Char} (h : c.toNat < 128) : lead c.toNat.toUInt8 = ([c], none) := by
  have hn : c.toNat.toUInt8.toNat = c.toNat := Nat.mod_eq_of_lt (by omega)
  simp only [lead, hn]
  rw [if_pos h, Char.ofNat_toNat]

theorem decodeLossy_encode_of_ascii {s : String} (h : IsAscii s.toList) :
    decodeLossy (encode s) = s := by
  have hread : ∀ cs : List Char, IsAscii cs → decodeFrom none (asciiBytes cs) = cs := by
    intro cs hcs
    induction cs with
    | nil => rfl
    | cons c rest ih =>
      obtain ⟨hc, hrest⟩ := List.forall_mem_cons.1 hcs
      rw [asciiBytes, List.map_cons, ← asciiBytes, decodeFrom, step, lead_of_ascii hc]
      exact congrArg (c :: ·) (ih hrest)
  rw [decodeLossy, encode_of_ascii h, hread _ h, String.ofList_toList]

end Utf8

end ReplicaRouter
