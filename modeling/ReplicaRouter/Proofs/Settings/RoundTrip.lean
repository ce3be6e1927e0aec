import ReplicaRouter.Proofs.Json.Fields
import ReplicaRouter.Proofs.Json.RoundTrip
import ReplicaRouter.Settings.Codec

/-! # Reading settings that were written

`Settings.decode?` undoes `Settings.encode` (`Settings.decode?_encode`). The text gives back its
document, since every number in it is a word (`Settings.integral_toJson`), and the document gives
back the record: its fields are those the record knows, each once (`Json.fields?_ofFields`), and
each is read as it was written.
-/

namespace ReplicaRouter

namespace Json

/-! ## Words -/

theorem isInteger_ofInt (v : Int) : (ofInt v).IsInteger v := by
  have htext : ofInt v = .number (String.ofList
      ((if v < 0 then ['-'] else []) ++ Nat.toDigits 10 v.natAbs)) := by
    rw [← Decimal.toList_ofInt, String.ofList_toList]
    rfl
  have hd := Decimal.isDigits_toDigits v.natAbs
  have hvalue : Nat.ofDigitChars 10 (Nat.toDigits 10 v.natAbs) 0 = v.natAbs :=
    Nat.ofDigitChars_ten_toDigits
  rw [htext]
  split
  · have := IsInteger.negative Nat.toDigits_ne_nil hd (by omega)
    rwa [hvalue, Int.ofNat_natAbs_of_nonpos (by omega), Int.neg_neg] at this
  · have := IsInteger.plain Nat.toDigits_ne_nil hd
    rwa [hvalue, Int.natAbs_of_nonneg (by omega)] at this

theorem uint32?_ofNat (w : UInt32) : (ofNat w.toNat).uint32? = some w :=
  (uint32?_eq_some_iff _ w).2 (isInteger_ofInt w.toNat)

theorem uint64?_ofNat (w : UInt64) : (ofNat w.toNat).uint64? = some w :=
  (uint64?_eq_some_iff _ w).2 (isInteger_ofInt w.toNat)

theorem int64?_ofInt (w : Int64) : (ofInt w.toInt).int64? = some w :=
  (int64?_eq_some_iff _ w).2 (isInteger_ofInt w.toInt)

/-! ## Fields -/

theorem fields?_ofFields {names : List String} {fields : List (String × Json)}
    (hnames : fields.map (·.1) = names) (hnodup : names.Nodup) :
    (ofFields fields).fields? names = some fields := by
  have hknown : (fields.filter fun f => names.contains f.1) = fields :=
    List.filter_eq_self.2 fun f hf => List.contains_iff_mem.2 (hnames ▸ List.mem_map_of_mem hf)
  rw [ofFields, fields?_object, mapM_named_eq_some_iff.2 rfl, Option.bind_some]
  simp only [hknown, hnames, if_pos hnodup]

@[simp] theorem text?_ofText (s : String) : (ofText s).text? = some s := rfl

theorem list?_map {α : Type} {write : α → Json} {read : Json → Option α}
    (h : ∀ a, read (write a) = some a) (xs : List α) :
    list? read (.array (xs.map write)) = some xs := by
  rw [list?_eq_some_iff]
  exact ⟨_, rfl, List.forall₂_map_left_iff.2 (List.forall₂_same.2 fun a _ => h a)⟩

end Json

open Json

namespace Endpoint

theorem integral_toJson (e : Endpoint) : Integral e.toJson := by
  refine .ofFields ?_
  simp [Integral.ofText, Integral.ofNat]

theorem ofJson?_toJson (e : Endpoint) : ofJson? e.toJson = some e := by
  rw [ofJson?, toJson, fields?_ofFields (by rfl) (by decide)]
  simp [field?, List.lookup_cons, uint32?_ofNat]

end Endpoint

namespace ShardRule

theorem integral_toJson (r : ShardRule) : Integral r.toJson := by
  refine .ofFields ?_
  simp [Integral.ofText, Integral.number]

theorem ofJson?_toJson (r : ShardRule) : ofJson? r.toJson = some r := by
  rw [ofJson?, toJson, fields?_ofFields (by rfl) (by decide)]
  simp [field?, List.lookup_cons, int64?_ofInt]

end ShardRule

namespace Settings

theorem integral_toJson (s : Settings) : Integral s.toJson := by
  refine .ofFields ?_
  simp [Integral.ofText, Integral.ofNat, Endpoint.integral_toJson,
    Integral.map Endpoint.integral_toJson, Integral.map ShardRule.integral_toJson]

theorem ofJson?_toJson (s : Settings) : ofJson? s.toJson = some s := by
  rw [ofJson?, toJson, fields?_ofFields (by rfl) (by decide)]
  simp [field?, List.lookup_cons, uint32?_ofNat, uint64?_ofNat, Endpoint.ofJson?_toJson,
    list?_map Endpoint.ofJson?_toJson, list?_map ShardRule.ofJson?_toJson]

/-- **Settings are read back from their text**, whatever their strings, words and lists, so no two
settings share one. -/
theorem decode?_encode :
    (∀ s : Settings, decode? s.encode = some s) ∧ Function.Injective encode := by
  have hread : ∀ s : Settings, decode? s.encode = some s := by
    intro s
    rw [decode?, encode, parse?_render s.integral_toJson]
    exact ofJson?_toJson s
  refine ⟨hread, fun s t h => ?_⟩
  have hs := hread s
  rw [h, hread t] at hs
  exact (Option.some.inj hs).symm

end Settings

end ReplicaRouter
