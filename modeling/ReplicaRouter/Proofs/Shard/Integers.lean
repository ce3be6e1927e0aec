import Mathlib.Data.List.Forall2
import ReplicaRouter.Proofs.Numerals
import ReplicaRouter.Shard.Ranges

/-!
# Integer keys of ranges

`Key.Holds k v`: the key `k` is an integer with the signed word `v`. A list of such keys stands for
the numerals of its words one after another (`Key.numberOfList_of_holds`), so a range look-up aborts
on it exactly if these spell no signed word (`Ranges.find_integers`).
-/

namespace ReplicaRouter

namespace Key

/-- An unsigned word is read by its bits, a text and the bytes of a text as a numeral. -/
inductive Holds : Key → Int64 → Prop
  | int (v : Int64) : Holds (.int v) v
  | uint (v : UInt64) : Holds (.uint v) v.toInt64
  | text {s : String} {v : Int64} (h : Decimal.Spells s.toList v.toInt) : Holds (.text s) v
  | bytes {s : String} {v : Int64} (h : Decimal.Spells s.toList v.toInt) :
      Holds (.bytes (Utf8.encode s)) v

theorem numberOfText_ok_iff {s : String} {v : Int64} :
    numberOfText s = .ok v ↔ Decimal.Spells s.toList v.toInt := by
  rw [← Decimal.readSigned_ok_iff, numberOfText]
  cases Decimal.readSigned s.toList <;> simp [Except.mapError]

/-- A text that spells no signed word is reported whole. -/
theorem numberOfText_error {s : String} (h : ∀ v, numberOfText s ≠ .ok v) :
    ∃ why, numberOfText s = .error (.malformed (.notInteger s why)) := by
  unfold numberOfText at h ⊢
  cases hr : Decimal.readSigned s.toList with
  | error why => exact ⟨why, rfl⟩
  | ok v => exact absurd (by rw [hr]; rfl) (h v)

theorem number_error {k : Key} {e : LookupError} (h : k.number = .error e) :
    ∃ m, e = .malformed m := by
  have htext : ∀ s, numberOfText s = .error e → ∃ m, e = .malformed m := by
    intro s hs
    unfold numberOfText at hs
    cases hr : Decimal.readSigned s.toList with
    | error why => rw [hr] at hs; cases hs; exact ⟨_, rfl⟩
    | ok v => rw [hr] at hs; cases hs
  cases k with
  | int => cases h
  | uint => cases h
  | text s => exact htext s h
  | bytes b => exact htext _ h

theorem Holds.number {k : Key} {v : Int64} (h : k.Holds v) : k.number = .ok v := by
  cases h with
  | int => rfl
  | uint => rfl
  | text h => exact numberOfText_ok_iff.2 h
  | bytes h =>
    show numberOfText (Utf8.decodeLossy _) = _
    rw [Utf8.decodeLossy_encode_of_ascii h.isAscii]
    exact numberOfText_ok_iff.2 h

theorem mapM_number_of_holds {keys : List Key} {vs : List Int64}
    (h : List.Forall₂ Holds keys vs) : keys.mapM number = .ok vs := by
  induction h with
  | nil => rfl
  | cons hk _ ih => rw [List.mapM_cons, hk.number, ih]; rfl

theorem toList_joined (vs : List Int64) :
    (joined vs).toList = (vs.map Int64.toInt).flatMap fun v => (Decimal.ofInt v).toList := by
  rw [joined, String.toList_ofList, List.flatMap_map]

/-- A single integer is its own numeral, so one key is no special case. -/
theorem numberOfList_of_holds {keys : List Key} {vs : List Int64} (hne : keys ≠ [])
    (h : List.Forall₂ Holds keys vs) : numberOfList keys = numberOfText (joined vs) := by
  cases h with
  | nil => exact absurd rfl hne
  | @cons k v rest ws hk hrest =>
    cases hrest with
    | nil =>
      have hv : numberOfText (joined [v]) = .ok v := by
        rw [numberOfText_ok_iff, toList_joined, List.map_cons, List.map_nil, List.flatMap_singleton]
        exact Decimal.spells_ofInt v.toInt
      rw [hv]
      exact hk.number
    | cons hk' hrest =>
      have hm := mapM_number_of_holds (.cons hk (.cons hk' hrest))
      simp only [numberOfList, hm, bind, Except.bind]

end Key

namespace Ranges

/-- A look-up that gets a number finds it in a range or nowhere. -/
theorem find_of_number {r : Ranges} (hr : r.spans ≠ []) {keys : List Key} {v : Int64}
    (hv : Key.numberOfList keys = .ok v) :
    (∃ i : Nat, i < r.spans.length ∧ r.find keys = .ok i) ∨ r.find keys = .error .outOfRange := by
  have hempty : r.spans.isEmpty = false := by simpa using hr
  unfold find
  rw [hempty, hv]
  cases hi : r.spans.findIdx? (·.contains v) with
  | none => exact .inr (by simp [bind, Except.bind, hi])
  | some i =>
    obtain ⟨hlt, -⟩ := List.findIdx?_eq_some_iff_getElem.1 hi
    exact .inl ⟨i, hlt, by simp [bind, Except.bind, hi]⟩

theorem find_of_error {r : Ranges} (hr : r.spans ≠ []) {keys : List Key} {e : LookupError}
    (he : Key.numberOfList keys = .error e) : r.find keys = .error e := by
  have hempty : r.spans.isEmpty = false := by simpa using hr
  unfold find
  rw [hempty, he]
  rfl

/-- **Where a range look-up of integers aborts.** Their numerals are written one after another and
read again. If they spell a signed word, as those of a single integer do, the look-up finds a range
or none. Otherwise, since a sign stands inside or the number is too large, it aborts with the text,
although every key is an integer. -/
theorem find_integers {r : Ranges} (hr : r.spans ≠ []) {keys : List Key} {vs : List Int64}
    (hne : keys ≠ []) (hkeys : List.Forall₂ Key.Holds keys vs) :
    let fits := ∃ n, Decimal.juxtaposed? (vs.map Int64.toInt) = some n ∧ -2 ^ 63 ≤ n ∧ n < 2 ^ 63
    (fits → (∃ i : Nat, i < r.spans.length ∧ r.find keys = .ok i) ∨
      r.find keys = .error .outOfRange) ∧
      (¬ fits → ∃ why, r.find keys = .error (.malformed (.notInteger (Key.joined vs) why))) ∧
      (keys.length = 1 → fits) := by
  intro fits
  have hlist := Key.numberOfList_of_holds hne hkeys
  -- What the numerals make together is what the text spells, and a word of that value is read.
  have hfits : fits ↔ ∃ v, Key.numberOfText (Key.joined vs) = .ok v := by
    simp only [Key.numberOfText_ok_iff, Key.toList_joined, Decimal.spells_flatMap_iff]
    constructor
    · rintro ⟨n, hn, h1, h2⟩
      exact ⟨Int64.ofInt n, by rw [hn, Int64.toInt_ofInt_of_le h1 h2]⟩
    · rintro ⟨v, hv⟩
      exact ⟨v.toInt, hv, v.le_toInt, v.toInt_lt⟩
  refine ⟨fun h => ?_, fun h => ?_, fun h => ?_⟩
  · obtain ⟨v, hv⟩ := hfits.1 h
    exact find_of_number hr (hlist.trans hv)
  · have hnone : ∀ v, Key.numberOfText (Key.joined vs) ≠ .ok v := fun v hv => h (hfits.2 ⟨v, hv⟩)
    obtain ⟨why, hwhy⟩ := Key.numberOfText_error hnone
    exact ⟨why, find_of_error hr (hlist.trans hwhy)⟩
  · obtain ⟨k, rfl⟩ := List.length_eq_one_iff.1 h
    obtain ⟨v, _, hk, hrest, rfl⟩ := List.forall₂_cons_left_iff.1 hkeys
    exact hfits.2 ⟨v, hlist ▸ hk.number⟩

/-- The numerals of 1 and -1 make `1-1`, which is no integer. -/
theorem find_integers_negative :
    let r : Ranges := ⟨[⟨0, 999⟩]⟩
    r.spans ≠ [] ∧ List.Forall₂ Key.Holds [.int 1, .int (-1)] [1, -1] ∧
      ∃ why, r.find [.int 1, .int (-1)] = .error (.malformed (.notInteger "1-1" why)) := by
  intro r
  have hkeys : List.Forall₂ Key.Holds [.int 1, .int (-1)] [1, -1] :=
    .cons (.int 1) (.cons (.int (-1)) .nil)
  refine ⟨by decide, hkeys, ?_⟩
  exact (find_integers (r := r) (by decide) (by decide) hkeys).2.1 (by decide)

end Ranges

end ReplicaRouter
