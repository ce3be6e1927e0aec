import ReplicaRouter.Proofs.Shard.Integers
import ReplicaRouter.Shard.Modulo

/-!
# Spellings of integer keys

An integer can be given as a key in many ways. A strategy by remainder takes it for an unsigned word
(`Key.HoldsUnsigned`), one by ranges for a signed word (`Key.Holds`), and both read a list of keys
through the words alone: `Key.residueOfList_congr`, `Key.numberOfList_congr`. So the way in which
each of several integers is written never matters (`find_respelled`).
-/

namespace ReplicaRouter

namespace Key

/-- A signed word is read by its bits, a text as digits, of which any number of the first may be
zeros. -/
inductive HoldsUnsigned : Key → UInt64 → Prop
  | uint (v : UInt64) : HoldsUnsigned (.uint v) v
  | int (v : Int64) : HoldsUnsigned (.int v) v.toUInt64
  | text {s : String} {v : UInt64} (hne : s.toList ≠ []) (hd : Decimal.IsDigits s.toList)
      (hv : Nat.ofDigitChars 10 s.toList 0 = v.toNat) : HoldsUnsigned (.text s) v

theorem HoldsUnsigned.residue {k : Key} {v : UInt64} (h : k.HoldsUnsigned v) : k.residue = v := by
  cases h with
  | uint => rfl
  | int => rfl
  | text hne hd hv =>
    rw [Key.residue, Decimal.readUnsigned?_eq_some_iff.2 ⟨hne, hd, hv⟩, Option.getD_some]

theorem map_residue_of_holds {keys : List Key} {vs : List UInt64}
    (h : List.Forall₂ HoldsUnsigned keys vs) : keys.map residue = vs := by
  induction h with
  | nil => rfl
  | cons hk _ ih => rw [List.map_cons, hk.residue, ih]

/-- A list of keys is reduced to its residues before anything else. -/
theorem residueOfList_congr {keys keys' : List Key} (h : keys.map residue = keys'.map residue) :
    residueOfList keys = residueOfList keys' := by
  have hlength := congrArg List.length h
  rw [List.length_map, List.length_map] at hlength
  have hsigned : (keys.map fun k => k.residue.toInt64) = keys'.map fun k => k.residue.toInt64 := by
    simpa [Function.comp_def] using congrArg (List.map UInt64.toInt64) h
  rcases keys with _ | ⟨k, _ | ⟨l, rest⟩⟩ <;> rcases keys' with _ | ⟨k', _ | ⟨l', rest'⟩⟩
  case nil.nil => rfl
  case cons.nil.cons.nil => exact congrArg Except.ok (List.cons.inj h).1
  case cons.cons.cons.cons =>
    show Except.ok (Key.text (joined _)).residue = Except.ok (Key.text (joined _)).residue
    rw [hsigned]
  all_goals simp at hlength

/-- Integers are reduced to their words before anything else. -/
theorem numberOfList_congr {keys keys' : List Key} {vs : List Int64}
    (h : List.Forall₂ Holds keys vs) (h' : List.Forall₂ Holds keys' vs) :
    numberOfList keys = numberOfList keys' := by
  rcases vs with _ | ⟨v, rest⟩
  · obtain rfl := List.forall₂_nil_right_iff.1 h
    obtain rfl := List.forall₂_nil_right_iff.1 h'
    rfl
  · obtain ⟨_, _, -, -, rfl⟩ := List.forall₂_cons_right_iff.1 h
    obtain ⟨_, _, -, -, rfl⟩ := List.forall₂_cons_right_iff.1 h'
    rw [numberOfList_of_holds (List.cons_ne_nil _ _) h,
      numberOfList_of_holds (List.cons_ne_nil _ _) h']

end Key

/-- **How an integer is written never matters.** Two lists of keys that hold the same words, each in
any of its spellings, are routed alike: to the same table, or with the same error, or aborting with
the same text. By remainder the words are unsigned, by ranges they are signed. -/
theorem find_respelled :
    (∀ (m : Modulo) {vs : List UInt64} {keys keys' : List Key},
      List.Forall₂ Key.HoldsUnsigned keys vs → List.Forall₂ Key.HoldsUnsigned keys' vs →
        m.find keys = m.find keys') ∧
      ∀ (r : Ranges) {vs : List Int64} {keys keys' : List Key},
        List.Forall₂ Key.Holds keys vs → List.Forall₂ Key.Holds keys' vs →
          r.find keys = r.find keys' := by
  constructor
  · intro m vs keys keys' h h'
    have hresidues : keys.map Key.residue = keys'.map Key.residue := by
      rw [Key.map_residue_of_holds h, Key.map_residue_of_holds h']
    rw [Modulo.find, Modulo.find, Key.residueOfList_congr hresidues]
  · intro r vs keys keys' h h'
    rw [Ranges.find, Ranges.find, Key.numberOfList_congr h h']

/-- The keys 12 and -1, taken for a word without and with sign, in two spellings each. -/
theorem find_respelled_wrapped :
    let plain := [Key.uint 12, .int (-1)]
    let written := [Key.text "0012", .text "18446744073709551615"]
    let signed := [Key.text "+012", .bytes [45, 48, 49]]
    (⟨1000⟩ : Modulo).find plain = (⟨1000⟩ : Modulo).find written ∧
      (⟨[⟨0, 999⟩]⟩ : Ranges).find plain = (⟨[⟨0, 999⟩]⟩ : Ranges).find signed := by
  intro plain written signed
  have h12 : Decimal.Spells ['+', '0', '1', '2'] 12 := .plus (by decide) (by decide)
  have h1 : Decimal.Spells ['-', '0', '1'] (-1) := .minus (by decide) (by decide)
  have hplain : List.Forall₂ Key.HoldsUnsigned plain [12, 18446744073709551615] :=
    .cons (.uint 12) (.cons (.int (-1)) .nil)
  have hwritten : List.Forall₂ Key.HoldsUnsigned written [12, 18446744073709551615] :=
    .cons (.text (by decide) (by decide) (by decide))
      (.cons (.text (by decide) (by decide) (by decide)) .nil)
  have hplain' : List.Forall₂ Key.Holds plain [12, -1] :=
    .cons (.uint 12) (.cons (.int (-1)) .nil)
  have hsigned : List.Forall₂ Key.Holds signed [12, -1] :=
    .cons (.text (s := "+012") h12) (.cons (.bytes (s := "-01") h1) .nil)
  exact ⟨find_respelled.1 ⟨1000⟩ hplain hwritten, find_respelled.2 ⟨[⟨0, 999⟩]⟩ hplain' hsigned⟩

end ReplicaRouter
