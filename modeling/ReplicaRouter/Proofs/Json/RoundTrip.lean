import ReplicaRouter.Json.Reader
import ReplicaRouter.Json.Record
import ReplicaRouter.Json.Writer
import ReplicaRouter.Proofs.Numerals

/-! # Reading what was written

A document whose numbers are integers in their plain spelling is read back from its text
(`Json.parse?_render`).

The readers give a value together with the characters left, so what is proved of them is about a
text with more behind it. A number would run on into a digit, a point or an exponent: every lemma
about values asks what follows to be a mark that ends one (`Delimits`), and the items and members
that follow each other in a list supply it. The bound of the readers is only ever compared with the
number of characters.
-/

namespace ReplicaRouter.Json

/-! ## Strings -/

/-- A piece stands for a character if it is the character or the unit of its code point. -/
inductive Piece.Stands : Piece → Char → Prop
  | char (c : Char) : Stands (.char c) c
  | unit (c : Char) : Stands (.unit c.toNat) c

theorem hexValue?_hexDigit : ∀ n < 16, hexValue? (hexDigit n) = some n := by decide

theorem unit?_control {n : Nat} (h : n < 256) :
    unit? '0' '0' (hexDigit (n / 16)) (hexDigit (n % 16)) = some n := by
  have h0 : hexValue? '0' = some 0 := rfl
  have h1 := hexValue?_hexDigit (n / 16) (by omega)
  have h2 := hexValue?_hexDigit (n % 16) (by omega)
  simp only [unit?, h0, h1, h2, Option.bind_eq_bind, Option.bind_some, Option.pure_def,
    Option.some.injEq]
  omega

theorem pieces?_plain {c : Char} (hq : c ≠ '"') (hb : c ≠ '\\') (hc : ¬ c.toNat < 0x20)
    {cs rest : List Char} {ps : List Piece} (h : pieces? cs = some (ps, rest)) :
    pieces? (c :: cs) = some (.char c :: ps, rest) := by
  unfold pieces?
  split
  case h_1 heq => cases heq
  case h_2 heq => exact absurd (List.cons.inj heq).1 hq
  case h_3 heq => exact absurd (List.cons.inj heq).1 hb
  case h_4 heq => exact absurd (List.cons.inj heq).1 hb
  case h_5 heq =>
    obtain ⟨rfl, rfl⟩ := List.cons.inj heq
    simp [hc, h]

/-- A character as written is read as one piece that stands for it. -/
theorem pieces?_encodeChar (c : Char) :
    ∃ p, Piece.Stands p c ∧ ∀ cs ps rest, pieces? cs = some (ps, rest) →
      pieces? (encodeChar c ++ cs) = some (p :: ps, rest) := by
  unfold encodeChar
  split
  -- The characters without a letter of their own to escape them.
  case h_8 hq hb _ _ _ _ _ =>
    split
    · rename_i hlow
      refine ⟨.unit c.toNat, .unit c, fun cs ps rest h => ?_⟩
      have hu := unit?_control (n := c.toNat) (by omega)
      simp [pieces?, hu, h]
    · rename_i hlow
      exact ⟨.char c, .char c, fun cs ps rest h => pieces?_plain hq hb hlow h⟩
  all_goals exact ⟨_, .char _, fun cs ps rest h => by simp [pieces?, escaped?, h]⟩

theorem pieces?_flatMap (cs rest : List Char) :
    ∃ ps, pieces? (cs.flatMap encodeChar ++ '"' :: rest) = some (ps, rest) ∧
      List.Forall₂ Piece.Stands ps cs := by
  induction cs with
  | nil => exact ⟨[], rfl, .nil⟩
  | cons c cs ih =>
    obtain ⟨ps, hps, hstands⟩ := ih
    obtain ⟨p, hp, hread⟩ := pieces?_encodeChar c
    refine ⟨p :: ps, ?_, .cons hp hstands⟩
    rw [List.flatMap_cons, List.append_assoc]
    exact hread _ _ _ hps

/-- A code point is no surrogate, so its unit stands alone. -/
theorem characters?_unit (c : Char) (ps : List Piece) :
    characters? (.unit c.toNat :: ps) = (characters? ps).map (c :: ·) := by
  have hvalid : c.toNat < 0xD800 ∨ 0xDFFF < c.toNat ∧ c.toNat < 0x110000 := c.valid
  have hlow : ¬ (0xD800 ≤ c.toNat ∧ c.toNat < 0xDC00) := by omega
  have hhigh : ¬ (0xDC00 ≤ c.toNat ∧ c.toNat < 0xE000) := by omega
  have hboth : ¬ (0xD800 ≤ c.toNat ∧ c.toNat < 0xE000) := by omega
  rcases ps with _ | ⟨_ | _, _⟩ <;>
    simp only [characters?, if_neg, hlow, hhigh, hboth, Char.ofNat_toNat, not_false_eq_true]

theorem characters?_of_stands {ps : List Piece} {cs : List Char}
    (h : List.Forall₂ Piece.Stands ps cs) : characters? ps = some cs := by
  induction h with
  | nil => rfl
  | cons hp _ ih =>
    cases hp with
    | char => rw [characters?, ih]; rfl
    | unit c => rw [characters?_unit, ih]; rfl

theorem stringTail?_encodeString (text : Option String) (rest : List Char) :
    ∃ body, encodeString text ++ rest = '"' :: body ∧ stringTail? body = some (text, rest) := by
  cases text with
  | none => exact ⟨_, rfl, by simp [stringTail?, pieces?, characters?, unit?, hexValue?]⟩
  | some s =>
    obtain ⟨ps, hps, hstands⟩ := pieces?_flatMap s.toList rest
    refine ⟨s.toList.flatMap encodeChar ++ '"' :: rest, by simp [encodeString], ?_⟩
    simp [stringTail?, hps, characters?_of_stands hstands]

/-! ## Numbers -/

/-- What can follow a value: nothing, the mark before another or one that closes a list. -/
inductive Delimits : List Char → Prop
  | nil : Delimits []
  | comma (cs : List Char) : Delimits (',' :: cs)
  | bracket (cs : List Char) : Delimits (']' :: cs)
  | brace (cs : List Char) : Delimits ('\x7d' :: cs)

theorem digits_append {ds rest : List Char} (hd : Decimal.IsDigits ds) (hr : Delimits rest) :
    digits (ds ++ rest) = (ds, rest) := by
  have hall : ∀ c ∈ ds, isDigit c = true := hd
  have hnone : digits rest = ([], rest) := by cases hr <;> rfl
  have htake := (Prod.mk.inj hnone).1
  have hdrop := (Prod.mk.inj hnone).2
  rw [digits, List.takeWhile_append_of_pos hall, List.dropWhile_append_of_pos hall, htake, hdrop,
    List.append_nil]

theorem wholePart?_toDigits (n : Nat) {rest : List Char} (hr : Delimits rest) :
    wholePart? (Nat.toDigits 10 n ++ rest) = some (Nat.toDigits 10 n, rest) := by
  rcases Nat.eq_zero_or_pos n with rfl | hn
  · rfl
  · have hdigits := digits_append (Decimal.isDigits_toDigits n) hr
    obtain ⟨c, ds, hc, -, hzero⟩ := Decimal.toDigits_eq_cons n
    rw [hc, List.cons_append] at hdigits ⊢
    unfold wholePart?
    split
    · rename_i heq
      exact absurd (List.cons.inj heq).1 (hzero hn)
    · rw [hdigits]
      rfl

theorem magnitude?_toDigits (n : Nat) {rest : List Char} (hr : Delimits rest) :
    magnitude? (Nat.toDigits 10 n ++ rest) = some (Nat.toDigits 10 n, rest) := by
  have hfraction : fraction? rest = some ([], rest) := by cases hr <;> rfl
  have hexponent : exponent? rest = some ([], rest) := by cases hr <;> rfl
  simp [magnitude?, wholePart?_toDigits n hr, hfraction, hexponent]

theorem spelling?_ofInt (v : Int) {rest : List Char} (hr : Delimits rest) :
    spelling? ((Decimal.ofInt v).toList ++ rest) = some ((Decimal.ofInt v).toList, rest) := by
  have hmagnitude := magnitude?_toDigits v.natAbs hr
  rw [Decimal.toList_ofInt]
  split
  · simp [spelling?, hmagnitude]
  · obtain ⟨c, ds, hc, hdigit, -⟩ := Decimal.toDigits_eq_cons v.natAbs
    rw [hc, List.cons_append] at hmagnitude
    rw [List.nil_append, hc, List.cons_append]
    unfold spelling?
    split
    · rename_i heq
      obtain ⟨rfl, -⟩ := List.cons.inj heq
      cases hdigit
    · exact hmagnitude

/-! ## Values -/

/-- A document whose numbers are all integers in their plain spelling. -/
inductive Integral : Json → Prop
  | null : Integral .null
  | bool (b : Bool) : Integral (.bool b)
  | number (v : Int) : Integral (.ofInt v)
  | string (text : Option String) : Integral (.string text)
  | array {xs : List Json} (h : ∀ x ∈ xs, Integral x) : Integral (.array xs)
  | object {ms : List (Option String × Json)} (h : ∀ m ∈ ms, Integral m.2) : Integral (.object ms)

theorem Integral.ofFields {fields : List (String × Json)} (h : ∀ f ∈ fields, Integral f.2) :
    Integral (.ofFields fields) := by
  refine .object fun m hm => ?_
  obtain ⟨f, hf, rfl⟩ := List.mem_map.1 hm
  exact h f hf

theorem Integral.ofText (s : String) : Integral (.ofText s) := .string s

theorem Integral.ofNat (n : Nat) : Integral (.ofNat n) := .number n

theorem Integral.map {α : Type} {write : α → Json} (h : ∀ a, Integral (write a)) (xs : List α) :
    Integral (.array (xs.map write)) := by
  refine .array fun x hx => ?_
  obtain ⟨a, -, rfl⟩ := List.mem_map.1 hx
  exact h a

/-- A document is read back if its text is, whatever follows it. -/
def IsReread (j : Json) : Prop :=
  ∀ bound rest, Delimits rest → j.encode.length ≤ bound →
    value? bound (j.encode ++ rest) = some (j, rest)

theorem skipBlanks_cons {c : Char} (h : isBlank c = false) (cs : List Char) :
    skipBlanks (c :: cs) = c :: cs :=
  List.dropWhile_cons_of_neg (by rw [h]; exact Bool.false_ne_true)

theorem isBlank_of_number {c : Char} (hc : c = '-' ∨ c.isDigit = true) : isBlank c = false := by
  rw [Bool.eq_false_iff]
  intro hblank
  simp only [isBlank, Bool.or_eq_true, decide_eq_true_eq] at hblank
  rcases hblank with ((rfl | rfl) | rfl) | rfl <;> rcases hc with hc | hc <;> cases hc

/-- A value is neither skipped nor taken for the end of a list. -/
theorem encode_eq_cons {j : Json} (h : Integral j) :
    ∃ c cs, j.encode = c :: cs ∧ isBlank c = false ∧ c ≠ ']' := by
  cases h with
  | null => exact ⟨'n', _, rfl, rfl, by decide⟩
  | bool b => cases b <;> exact ⟨_, _, rfl, rfl, by decide⟩
  | number v =>
    obtain ⟨c, cs, hcs, hc⟩ := Decimal.toList_ofInt_eq_cons v
    refine ⟨c, cs, by rw [ofInt, encode, hcs], isBlank_of_number hc, ?_⟩
    rintro rfl
    rcases hc with hc | hc <;> cases hc
  | string text => cases text <;> exact ⟨'"', _, rfl, rfl, by decide⟩
  | @array xs =>
    rcases xs with _ | ⟨x, xs⟩
    · exact ⟨'[', [']'], by rw [encode], rfl, by decide⟩
    · exact ⟨'[', _, by rw [encode]; rfl, rfl, by decide⟩
  | @object ms =>
    rcases ms with _ | ⟨m, ms⟩
    · exact ⟨'\x7b', ['\x7d'], by rw [encode], rfl, by decide⟩
    · exact ⟨'\x7b', _, by rw [encode]; rfl, rfl, by decide⟩

theorem value?_number {c : Char} {cs ds rest : List Char} (hc : c = '-' ∨ c.isDigit = true)
    (h : spelling? (c :: cs) = some (ds, rest)) (bound : Nat) :
    value? (bound + 1) (c :: cs) = some (.number (String.ofList ds), rest) := by
  rw [value?, skipBlanks_cons (isBlank_of_number hc)]
  split
  case h_7 => rw [h]; rfl
  -- Whatever else a value may start with is neither a sign nor a digit.
  all_goals
    rename_i heq
    obtain ⟨rfl, -⟩ := List.cons.inj heq
    rcases hc with hc | hc <;> cases hc

theorem exists_succ_of_encode_le {j : Json} (h : Integral j) {bound : Nat}
    (hb : j.encode.length ≤ bound) : ∃ b, bound = b + 1 := by
  obtain ⟨c, cs, hc, -, -⟩ := encode_eq_cons h
  rw [hc, List.length_cons] at hb
  exact Nat.exists_eq_add_of_le' (Nat.le_of_add_left_le hb)

/-! ## Lists of values -/

theorem encodeItems_cons (x : Json) (xs : List Json) (rest : List Char) :
    encodeItems (x :: xs) ++ rest = ',' :: (x.encode ++ (encodeItems xs ++ rest)) := by
  simp [encodeItems]

theorem encodeMembers_cons (name : Option String) (x : Json) (ms : List (Option String × Json))
    (rest : List Char) :
    encodeMembers ((name, x) :: ms) ++ rest =
      ',' :: (encodeString name ++ ':' :: (x.encode ++ (encodeMembers ms ++ rest))) := by
  simp [encodeMembers]

theorem delimits_encodeItems (xs : List Json) (rest : List Char) :
    Delimits (encodeItems xs ++ rest) := by
  cases xs with
  | nil => exact .bracket rest
  | cons x xs => rw [encodeItems_cons]; exact .comma _

theorem delimits_encodeMembers (ms : List (Option String × Json)) (rest : List Char) :
    Delimits (encodeMembers ms ++ rest) := by
  cases ms with
  | nil => exact .brace rest
  | cons m ms => rw [encodeMembers_cons]; exact .comma _

theorem itemsTail?_encodeItems {xs : List Json} (h : ∀ x ∈ xs, IsReread x) {bound : Nat}
    (hb : (encodeItems xs).length ≤ bound) (rest : List Char) :
    itemsTail? bound (encodeItems xs ++ rest) = some (xs, rest) := by
  induction xs generalizing bound with
  | nil =>
    obtain ⟨b, rfl⟩ := Nat.exists_eq_add_of_le' (m := 1) hb
    rfl
  | cons x xs ih =>
    simp only [encodeItems, List.length_append, List.length_cons] at hb
    obtain ⟨b, rfl⟩ := Nat.exists_eq_add_of_le' (m := 1) (n := bound) (by omega)
    have hx := h x (.head _) b (encodeItems xs ++ rest) (delimits_encodeItems xs rest) (by omega)
    have hlength : (encodeItems xs).length ≤ b := by omega
    have hxs := ih (fun y hy => h y (.tail _ hy)) hlength
    rw [encodeItems_cons, itemsTail?, skipBlanks_cons (c := ',') rfl]
    simp [hx, hxs]

theorem member?_encode (name : Option String) {x : Json} (h : IsReread x) {rest : List Char}
    (hr : Delimits rest) {bound : Nat} (hb : x.encode.length ≤ bound) :
    member? (bound + 1) (encodeString name ++ ':' :: (x.encode ++ rest)) =
      some ((name, x), rest) := by
  obtain ⟨body, hbody, htail⟩ := stringTail?_encodeString name (':' :: (x.encode ++ rest))
  have hx := h bound rest hr hb
  simp [member?, hbody, htail, skipBlanks_cons (c := '"') rfl, skipBlanks_cons (c := ':') rfl, hx]

theorem membersTail?_encodeMembers {ms : List (Option String × Json)}
    (h : ∀ m ∈ ms, IsReread m.2) {bound : Nat} (hb : (encodeMembers ms).length ≤ bound)
    (rest : List Char) :
    membersTail? bound (encodeMembers ms ++ rest) = some (ms, rest) := by
  induction ms generalizing bound with
  | nil =>
    obtain ⟨b, rfl⟩ := Nat.exists_eq_add_of_le' (m := 1) hb
    rfl
  | cons m ms ih =>
    obtain ⟨name, x⟩ := m
    simp only [encodeMembers, List.length_append, List.length_cons] at hb
    -- One of the bound is spent on the comma and one on the name.
    obtain ⟨b, rfl⟩ := Nat.exists_eq_add_of_le' (m := 2) (n := bound) (by omega)
    have hx : IsReread x := h (name, x) (.head _)
    have hvalue : x.encode.length ≤ b := by omega
    have hlength : (encodeMembers ms).length ≤ b + 1 := by omega
    have hm := member?_encode name hx (delimits_encodeMembers ms rest) hvalue
    have hms := ih (fun y hy => h y (.tail _ hy)) hlength
    rw [encodeMembers_cons, membersTail?, skipBlanks_cons (c := ',') rfl]
    simp [hm, hms]

/-! ## Documents -/

theorem isReread_array {xs : List Json} (h : ∀ x ∈ xs, Integral x)
    (hread : ∀ x ∈ xs, IsReread x) : IsReread (.array xs) := by
  intro bound rest hr hb
  obtain ⟨b, rfl⟩ := exists_succ_of_encode_le (.array h) hb
  rcases xs with _ | ⟨x, xs⟩
  · rw [encode]
    rfl
  · simp only [encode, List.length_append, List.length_cons] at hb
    have hvalue : x.encode.length ≤ b := by omega
    have hlength : (encodeItems xs).length ≤ b := by omega
    have hx := hread x (.head _) b _ (delimits_encodeItems xs rest) hvalue
    have hxs := itemsTail?_encodeItems (fun y hy => hread y (.tail _ hy)) hlength rest
    have htext : (array (x :: xs)).encode ++ rest = '[' :: (x.encode ++ (encodeItems xs ++ rest)) :=
      by simp [encode]
    -- The first item is neither blank nor the bracket of an empty array.
    obtain ⟨c, cs, hc, hblank, hclose⟩ := encode_eq_cons (h x (.head _))
    rw [htext, value?, skipBlanks_cons (c := '[') rfl]
    rw [hc, List.cons_append] at hx ⊢
    simp only [skipBlanks_cons hblank]
    split
    · rename_i heq
      exact absurd (List.cons.inj heq).1 hclose
    · simp [hx, hxs]

theorem isReread_object {ms : List (Option String × Json)} (h : ∀ m ∈ ms, Integral m.2)
    (hread : ∀ m ∈ ms, IsReread m.2) : IsReread (.object ms) := by
  intro bound rest hr hb
  rcases ms with _ | ⟨⟨name, x⟩, ms⟩
  · obtain ⟨b, rfl⟩ := exists_succ_of_encode_le (.object h) hb
    rw [encode]
    rfl
  · simp only [encode, List.length_append, List.length_cons] at hb
    obtain ⟨b, rfl⟩ := Nat.exists_eq_add_of_le' (m := 2) (n := bound) (by omega)
    have hx : IsReread x := hread (name, x) (.head _)
    have hvalue : x.encode.length ≤ b := by omega
    have hlength : (encodeMembers ms).length ≤ b + 1 := by omega
    have hm := member?_encode name hx (delimits_encodeMembers ms rest) hvalue
    have hms := membersTail?_encodeMembers (fun y hy => hread y (.tail _ hy)) hlength rest
    have htext : (object ((name, x) :: ms)).encode ++ rest =
        '\x7b' :: (encodeString name ++ ':' :: (x.encode ++ (encodeMembers ms ++ rest))) := by
      simp [encode]
    obtain ⟨body, hbody, -⟩ := stringTail?_encodeString name
      (':' :: (x.encode ++ (encodeMembers ms ++ rest)))
    rw [htext, value?, skipBlanks_cons (c := '\x7b') rfl]
    rw [hbody] at hm ⊢
    simp [skipBlanks_cons (c := '"') rfl, hm, hms]

theorem isReread_of_integral {j : Json} (h : Integral j) : IsReread j := by
  induction h with
  | null =>
    intro bound rest hr hb
    obtain ⟨b, rfl⟩ := exists_succ_of_encode_le .null hb
    rfl
  | bool v =>
    intro bound rest hr hb
    obtain ⟨b, rfl⟩ := exists_succ_of_encode_le (.bool v) hb
    cases v <;> rfl
  | number v =>
    intro bound rest hr hb
    obtain ⟨b, rfl⟩ := exists_succ_of_encode_le (.number v) hb
    obtain ⟨c, cs, hcs, hc⟩ := Decimal.toList_ofInt_eq_cons v
    have hspelling := spelling?_ofInt v hr
    rw [ofInt, encode]
    rw [hcs, List.cons_append] at hspelling ⊢
    rw [value?_number hc hspelling, ← hcs, String.ofList_toList]
  | string text =>
    intro bound rest hr hb
    obtain ⟨b, rfl⟩ := exists_succ_of_encode_le (.string text) hb
    obtain ⟨body, hbody, htail⟩ := stringTail?_encodeString text rest
    rw [encode, hbody, value?, skipBlanks_cons (c := '"') rfl]
    simp [htail]
  | array h ih => exact isReread_array h ih
  | object h ih => exact isReread_object h ih

theorem parse?_render {j : Json} (h : Integral j) : parse? j.render = some j := by
  have hread := isReread_of_integral h (j.encode.length + 1) [] .nil (Nat.le_succ _)
  rw [List.append_nil] at hread
  simp [parse?, render, hread, skipBlanks]

end ReplicaRouter.Json
