import ReplicaRouter.Proofs.Shard.Dates

/-!
# Texts as literal dates

`CalendarPart.layout` is the literal date of a part: digits, and marks between its fields. A text is
cut at bytes, and the bytes at the marks are not looked at. Still a mark is one character: it stands
between digits, and the bytes of a character beyond ASCII stand next to others like them
(`Slot.fills_encode_iff`). So the texts that are numbered are those of enough bytes that are laid
out as a literal date with any ASCII characters for marks (`CalendarPart.findLiteral_ok_iff`), also
decimals that are no date at all (`CalendarPart.find_text`).
-/

namespace ReplicaRouter

/-! ## Bytes of characters -/

namespace Utf8

/-- A character beyond ASCII takes at least two bytes, and none of them is ASCII. -/
theorem encodeChar_of_not_ascii {c : Char} (h : ¬ c.toNat < 128) :
    ∃ x y tail, String.utf8EncodeChar c = x :: y :: tail ∧ 128 ≤ x.toNat ∧ 128 ≤ y.toNat := by
  have hc : ¬ c.val.toNat ≤ 127 := fun hle => h (Nat.lt_succ_of_le hle)
  simp only [String.utf8EncodeChar, if_neg hc]
  split
  · exact ⟨_, _, _, rfl, by simp; omega, by simp; omega⟩
  · split
    · exact ⟨_, _, _, rfl, by simp; omega, by simp; omega⟩
    · exact ⟨_, _, _, rfl, by simp; omega, by simp; omega⟩

end Utf8

/-- The byte of a decimal digit. -/
def IsDigitByte (d : UInt8) : Prop := 48 ≤ d.toNat ∧ d.toNat ≤ 57

theorem isDigitByte_iff {c : Char} (h : c.toNat < 128) :
    IsDigitByte c.toNat.toUInt8 ↔ c.isDigit = true := by
  have hbyte : c.toNat.toUInt8.toNat = c.toNat := Nat.mod_eq_of_lt (by omega)
  rw [IsDigitByte, hbyte, Char.isDigit_iff_toNat]
  exact Iff.rfl

theorem toNat_lt_of_isDigit {c : Char} (h : c.isDigit = true) : c.toNat < 128 :=
  Decimal.IsDigits.isAscii (List.forall_mem_singleton.2 h) c (.head _)

/-! ## Layouts -/

/-- What stands at a place of a date's text. -/
inductive Slot
  | digit
  | mark

namespace Slot

/-- A slot on the characters of a text: a digit, or a mark of a kind. -/
def Admits (mark : Char → Prop) : Slot → Char → Prop
  | .digit, c => c.isDigit = true
  | .mark, c => mark c

/-- A slot on the bytes of a text, where a mark is not looked at. -/
def Reads : Slot → UInt8 → Prop
  | .digit, d => IsDigitByte d
  | .mark, _ => True

/-- The entries of a list fill slots one by one, from the front. More of them may follow. -/
def Fills {α : Type} (R : Slot → α → Prop) (slots : List Slot) (l : List α) : Prop :=
  ∀ (p : Nat) slot, slots[p]? = some slot → ∃ a, l[p]? = some a ∧ R slot a

section
variable {α : Type} {R : Slot → α → Prop} {slot : Slot} {slots : List Slot}

theorem fills_nil (l : List α) : Fills R [] l := fun p slot h => by simp at h

@[simp] theorem not_fills_nil : ¬ Fills R (slot :: slots) [] := fun h => by
  obtain ⟨a, ha, -⟩ := h 0 slot rfl
  cases ha

@[simp] theorem fills_cons {a : α} {l : List α} :
    Fills R (slot :: slots) (a :: l) ↔ R slot a ∧ Fills R slots l := by
  constructor
  · intro h
    obtain ⟨b, hb, hR⟩ := h 0 slot rfl
    cases hb
    exact ⟨hR, fun p => h (p + 1)⟩
  · rintro ⟨hR, h⟩ (_ | p) s hs
    · cases hs
      exact ⟨a, rfl, hR⟩
    · exact h p s hs

end

/-- Every mark stands before a digit. -/
inductive Separated : List Slot → Prop
  | nil : Separated []
  | digit {slots : List Slot} (h : Separated slots) : Separated (.digit :: slots)
  | mark {slots : List Slot} (h : Separated (.digit :: slots)) :
      Separated (.mark :: .digit :: slots)

theorem fills_encodeChar {c : Char} (hc : c.toNat < 128) (slot : Slot) (slots : List Slot)
    (b : List UInt8) : Fills Reads (slot :: slots) (String.utf8EncodeChar c ++ b) ↔
      slot.Admits (·.toNat < 128) c ∧ Fills Reads slots b := by
  rw [Utf8.encodeChar_of_ascii hc, List.singleton_append, fills_cons]
  apply and_congr_left'
  cases slot with
  | digit => exact isDigitByte_iff hc
  | mark => exact iff_of_true trivial hc

/-- The bytes of a text fill separated slots exactly if its characters do, the marks being ASCII:
the second byte of a longer character would stand where a digit is due. -/
theorem fills_encode_iff {slots : List Slot} (h : Separated slots) (cs : List Char) :
    Fills Reads slots (cs.flatMap String.utf8EncodeChar) ↔
      Fills (Admits (·.toNat < 128)) slots cs := by
  induction h generalizing cs with
  | nil => exact iff_of_true (fills_nil _) (fills_nil _)
  | digit _ ih =>
    rcases cs with _ | ⟨c, rest⟩
    · simp
    rw [List.flatMap_cons, fills_cons]
    by_cases hc : c.toNat < 128
    · rw [fills_encodeChar hc, ih]
    · obtain ⟨x, y, tail, he, hx, -⟩ := Utf8.encodeChar_of_not_ascii hc
      rw [he, List.cons_append, fills_cons]
      refine iff_of_false (fun h => ?_) fun h => hc (toNat_lt_of_isDigit h.1)
      exact absurd (Nat.le_trans hx h.1.2) (by decide)
  | mark _ ih =>
    rcases cs with _ | ⟨c, rest⟩
    · simp
    rw [List.flatMap_cons, fills_cons]
    by_cases hc : c.toNat < 128
    · rw [fills_encodeChar hc, ih]
    · obtain ⟨x, y, tail, he, -, hy⟩ := Utf8.encodeChar_of_not_ascii hc
      rw [he, List.cons_append, List.cons_append, fills_cons, fills_cons]
      refine iff_of_false (fun h => ?_) fun h => hc h.1
      exact absurd (Nat.le_trans hy h.2.1.2) (by decide)

/-- What keeps filled slots from being filled with other marks is one of the marks. -/
theorem not_fills_iff {p q : Char → Prop} {slots : List Slot} {cs : List Char}
    (h : Fills (Admits p) slots cs) : ¬ Fills (Admits q) slots cs ↔
      ∃ (i : Nat) (c : Char), slots[i]? = some .mark ∧ cs[i]? = some c ∧ ¬ q c := by
  constructor
  · intro hnot
    by_contra hmarks
    refine hnot fun i slot hi => ?_
    obtain ⟨c, hc, hp⟩ := h i slot hi
    refine ⟨c, hc, ?_⟩
    cases slot with
    | digit => exact hp
    | mark => exact by_contra fun hq => hmarks ⟨i, c, hi, hc, hq⟩
  · rintro ⟨i, c, hi, hc, hq⟩ hfills
    obtain ⟨c', hc', hq'⟩ := hfills i .mark hi
    cases hc.symm.trans hc'
    exact hq hq'

/-- The entries at the digits. -/
def pick {α : Type} : List Slot → List α → List α
  | .digit :: slots, a :: l => a :: pick slots l
  | .mark :: slots, _ :: l => pick slots l
  | _, _ => []

theorem fills_reads_iff {slots : List Slot} {b : List UInt8} (h : slots.length ≤ b.length) :
    Fills Reads slots b ↔ ∀ d ∈ pick slots b, IsDigitByte d := by
  induction slots generalizing b with
  | nil => simp [pick, fills_nil]
  | cons slot slots ih =>
    obtain ⟨d, rest, rfl⟩ := List.exists_cons_of_length_pos (Nat.lt_of_lt_of_le (Nat.succ_pos _) h)
    rw [fills_cons, ih (Nat.le_of_succ_le_succ h)]
    cases slot with
    | digit => simp [pick, Reads]
    | mark => simp [pick, Reads]

theorem pick_digits {α : Type} (n : Nat) (slots : List Slot) (l : List α) :
    pick (List.replicate n .digit ++ slots) l = l.take n ++ pick slots (l.drop n) := by
  induction n generalizing l with
  | zero => simp
  | succ n ih =>
    cases l with
    | nil => simp [List.replicate_succ, pick]
    | cons a rest => simp [List.replicate_succ, pick, ih]

theorem pick_mark {α : Type} (slots : List Slot) (l : List α) :
    pick (.mark :: slots) l = pick slots (l.drop 1) := by
  cases l with
  | nil => simp [pick]
  | cons a rest => rfl

end Slot

open Decimal (IsDigits)
open Utf8 (asciiBytes)

namespace CalendarPart

/-- The literal date of a part: the year in four digits, and the month and the day in two, each
after a mark. -/
def layout : CalendarPart → List Slot
  | .year => List.replicate 4 .digit
  | .month => List.replicate 4 .digit ++ .mark :: List.replicate 2 .digit
  | .day => List.replicate 4 .digit ++
      .mark :: (List.replicate 2 .digit ++ .mark :: List.replicate 2 .digit)

theorem separated_layout (part : CalendarPart) : Slot.Separated part.layout := by
  have hdigits (n : Nat) {slots : List Slot} (h : Slot.Separated slots) :
      Slot.Separated (List.replicate n .digit ++ slots) := by
    induction n with
    | zero => exact h
    | succ n ih => exact .digit ih
  have hlast : Slot.Separated (List.replicate 2 .digit) := .digit (.digit .nil)
  cases part with
  | year => exact hdigits 4 .nil
  | month => exact hdigits 4 (.mark hlast)
  | day => exact hdigits 4 (.mark (hdigits 2 (.mark hlast)))

theorem length_layout_le (part : CalendarPart) : part.layout.length ≤ part.literalLength := by
  cases part <;> decide

theorem literalDigits_eq_pick (part : CalendarPart) (b : List UInt8) :
    part.literalDigits b = Slot.pick part.layout b := by
  have hdigits (n : Nat) (l : List UInt8) : Slot.pick (List.replicate n .digit) l = l.take n := by
    rw [← List.append_nil (List.replicate n Slot.digit), Slot.pick_digits]
    simp [Slot.pick]
  cases part with
  | year => rw [layout, hdigits, literalDigits]
  | month => rw [layout, Slot.pick_digits, Slot.pick_mark, hdigits, List.drop_drop, literalDigits]
  | day =>
    rw [layout, Slot.pick_digits, Slot.pick_mark, Slot.pick_digits, Slot.pick_mark, hdigits,
      List.drop_drop, List.drop_drop, List.drop_drop, literalDigits, List.append_assoc]

/-! ## Digits -/

/-- Bytes of digits are those of digits as characters. -/
theorem exists_digits {b : List UInt8} (h : ∀ d ∈ b, IsDigitByte d) :
    ∃ cs, IsDigits cs ∧ asciiBytes cs = b := by
  induction b with
  | nil => exact ⟨[], nofun, rfl⟩
  | cons d rest ih =>
    obtain ⟨hd, hrest⟩ := List.forall_mem_cons.1 h
    obtain ⟨cs, hcs, rfl⟩ := ih hrest
    have hbound := hd.2
    have hchar : (Char.ofNat d.toNat).toNat = d.toNat :=
      Utf8.toNat_ofNat_of_isValidChar (.inl (by omega))
    have hbyte : (Char.ofNat d.toNat).toNat.toUInt8 = d := by rw [hchar]; exact UInt8.ofNat_toNat
    have hdigit : (Char.ofNat d.toNat).isDigit = true := by
      rw [← isDigitByte_iff (by omega), hbyte]
      exact hd
    refine ⟨Char.ofNat d.toNat :: cs, Decimal.isDigits_cons.2 ⟨hdigit, hcs⟩, ?_⟩
    exact congrArg (· :: asciiBytes cs) hbyte

theorem forall_isDigitByte_of_some {b : List UInt8} {i : Int} (h : digitsValue? b = some i) :
    ∀ d ∈ b, IsDigitByte d := by
  have hfold : ∀ (b : List UInt8) (n : Int), (b.foldlM (fun (n : Int) (d : UInt8) =>
      if 48 ≤ d.toNat ∧ d.toNat ≤ 57 then some (n * 10 + (d.toNat - 48)) else none) n) = some i →
        ∀ d ∈ b, IsDigitByte d := by
    intro b
    induction b with
    | nil => exact fun _ _ => nofun
    | cons d rest ih =>
      intro n hn
      rw [List.foldlM_cons] at hn
      split at hn
      · rename_i hd
        exact List.forall_mem_cons.2 ⟨hd, ih _ hn⟩
      · cases hn
  exact hfold b 0 h

/-- Bytes have a value exactly if they are those of digits, which is the number written in them. -/
theorem digitsValue?_eq_some_iff {b : List UInt8} {i : Int} :
    digitsValue? b = some i ↔
      ∃ cs, IsDigits cs ∧ asciiBytes cs = b ∧ (Nat.ofDigitChars 10 cs 0 : Int) = i := by
  constructor
  · intro h
    obtain ⟨cs, hcs, rfl⟩ := exists_digits (forall_isDigitByte_of_some h)
    rw [digitsValue?_asciiBytes hcs] at h
    exact ⟨cs, hcs, rfl, Option.some.inj h⟩
  · rintro ⟨cs, hcs, rfl, rfl⟩
    exact digitsValue?_asciiBytes hcs

theorem exists_digitsValue?_iff {b : List UInt8} :
    (∃ i, digitsValue? b = some i) ↔ ∀ d ∈ b, IsDigitByte d := by
  constructor
  · rintro ⟨i, h⟩
    exact forall_isDigitByte_of_some h
  · intro h
    obtain ⟨cs, hcs, rfl⟩ := exists_digits h
    exact ⟨_, digitsValue?_asciiBytes hcs⟩

/-! ## Accepted texts -/

theorem findLiteral_ok_iff {part : CalendarPart} {s : String} {i : Int} :
    part.findLiteral s = .ok i ↔ part.literalLength ≤ (Utf8.encode s).length ∧
      digitsValue? (part.literalDigits (Utf8.encode s)) = some i := by
  simp only [findLiteral]
  split
  · rename_i hshort
    simp [Nat.not_le_of_lt hshort]
  · rename_i hlong
    cases digitsValue? (part.literalDigits (Utf8.encode s)) with
    | none => simp
    | some n => simp [Nat.le_of_not_lt hlong]

/-- A text that is not numbered is reported whole. -/
theorem findLiteral_error {part : CalendarPart} {s : String}
    (h : ¬ ∃ i, part.findLiteral s = .ok i) :
    part.findLiteral s = .error (.malformed (.notDate s)) := by
  simp only [findLiteral] at h ⊢
  split
  · rfl
  · rename_i hlong
    rw [if_neg hlong] at h
    cases hv : digitsValue? (part.literalDigits (Utf8.encode s)) with
    | none => rfl
    | some n =>
      rw [hv] at h
      exact absurd ⟨n, rfl⟩ h

/-- The texts that are numbered. -/
theorem exists_findLiteral_iff {part : CalendarPart} {s : String} :
    (∃ i, part.findLiteral s = .ok i) ↔ part.literalLength ≤ (Utf8.encode s).length ∧
      Slot.Fills (Slot.Admits (·.toNat < 128)) part.layout s.toList := by
  simp only [findLiteral_ok_iff, exists_and_left]
  apply and_congr_right
  intro hlong
  rw [exists_digitsValue?_iff, literalDigits_eq_pick,
    ← Slot.fills_reads_iff (Nat.le_trans (length_layout_le part) hlong)]
  exact Slot.fills_encode_iff (separated_layout part) s.toList

/-- **What is accepted for a literal date.** A text is numbered exactly if it has bytes enough and
starts with the digits of the layout, whatever ASCII characters stand at the marks. In every other
case the look-up aborts with the text. So texts are numbered that are no literal dates, exactly
those with another mark than a hyphen, decimals among them. -/
theorem find_text (part : CalendarPart) (offset : Int) (s : String) (rest : List Key) :
    let found := part.find offset (.text s :: rest)
    let long := part.literalLength ≤ (Utf8.encode s).length
    let starts (mark : Char → Prop) := Slot.Fills (Slot.Admits mark) part.layout s.toList
    ((∃ i, found = .ok i) ↔ long ∧ starts (·.toNat < 128)) ∧
      ((¬ ∃ i, found = .ok i) → found = .error (.malformed (.notDate s))) ∧
      ((∃ i, found = .ok i) ∧ ¬ starts (· = '-') ↔ long ∧ starts (·.toNat < 128) ∧
        ∃ (i : Nat) (c : Char),
          part.layout[i]? = some .mark ∧ s.toList[i]? = some c ∧ c ≠ '-') := by
  intro found long starts
  have haccepted : (∃ i, found = .ok i) ↔ long ∧ starts (·.toNat < 128) := exists_findLiteral_iff
  refine ⟨haccepted, findLiteral_error, ?_⟩
  rw [haccepted, and_assoc]
  exact and_congr_right fun _ => and_congr_right fun h => Slot.not_fills_iff h

/-- A count of seconds written in decimals is numbered by some of its digits. -/
theorem find_text_seconds :
    find .day 0 [.text "1684281600"] = .ok 16848100 ∧
      ¬ Slot.Fills (Slot.Admits (· = '-')) (layout .day) "1684281600".toList := by
  have hfound : find .day 0 [.text "1684281600"] = .ok 16848100 := by decide +kernel
  obtain ⟨haccepted, -, hother⟩ := find_text .day 0 "1684281600" []
  obtain ⟨hlong, hstarts⟩ := haccepted.1 ⟨_, hfound⟩
  exact ⟨hfound, (hother.2 ⟨hlong, hstarts, 4, '2', rfl, rfl, by decide⟩).2⟩

end CalendarPart

end ReplicaRouter
