import Mathlib.Data.List.Forall2
import Mathlib.Data.List.Nodup
import ReplicaRouter.Json.Record
import ReplicaRouter.Proofs.Numerals

/-! # Fields of records

What a document gives a record, told without reading it.

* `Json.IsRecord`: the documents that can stand for a record of some fields. `Json.given` is the
  value that such a document gives a field, in an object by its name and in an array by its place.
  These are the fields that are read (`Json.fields?_eq_some`, `Json.exists_fields?`).
* `Json.Given`: a field's value, decoded if it is there and the default if not
  (`Json.field?_eq_some_iff`). A record is read field by field if this tells what is read of a
  document (`Json.ReadsByField`).
* `Json.IsInteger`: the numbers that are integers (`Json.integer?_eq_some_iff`).
* `Json.Restyled`: another way to write a document, which gives each field the value that it gave
  before, the default where it was missing or becomes so (`Json.Restyled.kept`).
-/

namespace ReplicaRouter.Json

/-! ## Documents of records -/

/-- The values of the members of a name, in order. -/
def valuesOf (name : String) (members : List (Option String × Json)) : List Json :=
  (members.filter (·.1 = some name)).map (·.2)

/-- A document that can stand for a record of these fields: an object in which every name is a text
and none of these stands twice, or an array of no more items. -/
def IsRecord (names : List String) : Json → Prop
  | .object members =>
    (∀ m ∈ members, m.1 ≠ none) ∧ ∀ name ∈ names, (valuesOf name members).length ≤ 1
  | .array items => items.length ≤ names.length
  | _ => False

/-- The value that a document gives a field, if any: the member of its name or the item at its
place. -/
def given (names : List String) (name : String) : Json → Option Json
  | .object members => (valuesOf name members).head?
  | .array items => items[names.idxOf name]?
  | _ => none

theorem mapM_eq_some_iff {α β : Type} {read : α → Option β} {xs : List α} {vs : List β} :
    xs.mapM read = some vs ↔ List.Forall₂ (fun x v => read x = some v) xs vs := by
  induction xs generalizing vs with
  | nil => cases vs <;> simp
  | cons x xs ih =>
    simp only [List.mapM_cons, Option.bind_eq_bind, Option.bind_eq_some_iff, Option.pure_def,
      Option.some.injEq, List.forall₂_cons_left_iff, ih]
    constructor
    · rintro ⟨v, hv, vs, hvs, rfl⟩
      exact ⟨v, vs, hv, hvs, rfl⟩
    · rintro ⟨v, vs, hv, hvs, rfl⟩
      exact ⟨v, hv, vs, hvs, rfl⟩

theorem lookup_eq_head? (name : String) (fields : List (String × Json)) :
    fields.lookup name = ((fields.filter (·.1 = name)).map (·.2)).head? := by
  induction fields with
  | nil => rfl
  | cons f fields ih =>
    obtain ⟨n, x⟩ := f
    rw [List.lookup_cons, List.filter_cons]
    by_cases h : n = name
    · simp [h]
    · rw [if_neg (by simpa using h), beq_false_of_ne (Ne.symm h)]
      exact ih

theorem lookup_zip {name : String} : ∀ {names : List String} (items : List Json), name ∈ names →
    (names.zip items).lookup name = items[names.idxOf name]?
  | _, [], _ => by rw [List.zip_nil_right, List.getElem?_nil]; rfl
  | n :: names, x :: items, h => by
    rw [List.zip_cons_cons, List.lookup_cons]
    by_cases hn : name = n
    · simp [hn]
    · rw [beq_false_of_ne hn, List.idxOf_cons_ne _ (Ne.symm hn), List.getElem?_cons_succ]
      exact lookup_zip items ((List.mem_cons.1 h).resolve_left hn)

theorem mapM_named_eq_some_iff {members : List (Option String × Json)}
    {named : List (String × Json)} :
    members.mapM (fun m : Option String × Json => m.1.map (·, m.2)) = some named ↔
      members = named.map fun f => (some f.1, f.2) := by
  have hone : ∀ (m : Option String × Json) (f : String × Json),
      m.1.map (·, m.2) = some f ↔ m = (some f.1, f.2) := by
    rintro ⟨_ | name, x⟩ ⟨n, y⟩ <;> simp
  rw [mapM_eq_some_iff]
  simp only [hone]
  rw [← List.forall₂_map_right_iff (R := fun m m' : Option String × Json => m = m'),
    List.forall₂_eq_eq_eq]

theorem exists_named {members : List (Option String × Json)} (h : ∀ m ∈ members, m.1 ≠ none) :
    ∃ named : List (String × Json), members = named.map fun f => (some f.1, f.2) := by
  induction members with
  | nil => exact ⟨[], rfl⟩
  | cons m members ih =>
    obtain ⟨name, hname⟩ := Option.ne_none_iff_exists'.1 (h m (.head _))
    obtain ⟨named, rfl⟩ := ih fun m' hm => h m' (.tail _ hm)
    exact ⟨(name, m.2) :: named, by rw [List.map_cons, ← hname]⟩

theorem valuesOf_named (name : String) (named : List (String × Json)) :
    valuesOf name (named.map fun f => (some f.1, f.2)) =
      (named.filter (·.1 = name)).map (·.2) := by
  simp [valuesOf, List.filter_map, Function.comp_def]

section
variable {names : List String} (named : List (String × Json))

theorem filter_known {name : String} (h : name ∈ names) :
    (named.filter fun f => names.contains f.1).filter (·.1 = name) =
      named.filter (·.1 = name) := by
  rw [List.filter_filter]
  refine List.filter_congr fun f _ => ?_
  by_cases hf : f.1 = name
  · simp [hf, h]
  · simp [hf]

/-- The known names are different if each stands at most once. -/
theorem nodup_known_iff :
    ((named.filter fun f => names.contains f.1).map (·.1)).Nodup ↔
      ∀ name ∈ names, ((named.filter (·.1 = name)).map (·.2)).length ≤ 1 := by
  have hcount : ∀ name, ((named.filter fun f => names.contains f.1).map (·.1)).count name =
      ((named.filter fun f => names.contains f.1).filter (·.1 = name)).length := by
    intro name
    rw [List.count_eq_countP, List.countP_map, List.countP_eq_length_filter]
    rfl
  rw [List.nodup_iff_count_le_one]
  constructor
  · intro h name hname
    have := h name
    rwa [hcount, filter_known named hname, ← List.length_map (f := (·.2))] at this
  · intro h name
    rw [hcount]
    by_cases hname : name ∈ names
    · rw [filter_known named hname, ← List.length_map (f := (·.2))]
      exact h name hname
    · have hnone : (named.filter fun f => names.contains f.1).filter (·.1 = name) = [] := by
        rw [List.filter_filter, List.filter_eq_nil_iff]
        intro f _ hf
        simp only [Bool.and_eq_true, decide_eq_true_eq, List.contains_iff_mem] at hf
        exact hname (hf.1 ▸ hf.2)
      rw [hnone]
      exact Nat.zero_le _

end

theorem fields?_object (names : List String) (members : List (Option String × Json)) :
    fields? names (.object members) =
      (members.mapM fun m : Option String × Json => m.1.map (·, m.2)).bind fun named =>
        let known := named.filter fun f => names.contains f.1
        if (known.map (·.1)).Nodup then some known else none := rfl

/-- The fields that are read are those of a record, each with the value that it is given. -/
theorem fields?_eq_some {names : List String} {j : Json} {fields : List (String × Json)}
    (h : j.fields? names = some fields) :
    j.IsRecord names ∧ ∀ name ∈ names, fields.lookup name = j.given names name := by
  cases j with
  | object members =>
    rw [fields?_object, Option.bind_eq_some_iff] at h
    obtain ⟨named, hm, h⟩ := h
    obtain rfl := mapM_named_eq_some_iff.1 hm
    simp only at h
    split at h
    · rename_i hnodup
      obtain rfl := Option.some.inj h
      refine ⟨⟨fun m hm => ?_, fun name hname => ?_⟩, fun name hname => ?_⟩
      · obtain ⟨f, -, rfl⟩ := List.mem_map.1 hm
        exact Option.some_ne_none _
      · rw [valuesOf_named]
        exact (nodup_known_iff named).1 hnodup name hname
      · rw [lookup_eq_head?, filter_known named hname, given, valuesOf_named]
    · cases h
  | array items =>
    simp only [fields?] at h
    split at h
    · rename_i hle
      obtain rfl := Option.some.inj h
      exact ⟨hle, fun name hname => lookup_zip items hname⟩
    · cases h
  | _ => cases h

theorem exists_fields? {names : List String} {j : Json} (h : j.IsRecord names) :
    ∃ fields, j.fields? names = some fields := by
  cases j with
  | object members =>
    obtain ⟨htexts, honce⟩ := h
    obtain ⟨named, rfl⟩ := exists_named htexts
    have hnodup := (nodup_known_iff named).2 fun name hname => by
      rw [← valuesOf_named]
      exact honce name hname
    exact ⟨_, by rw [fields?_object, mapM_named_eq_some_iff.2 rfl, Option.bind_some, if_pos hnodup]⟩
  | array items => exact ⟨_, if_pos h⟩
  | _ => cases h

/-! ## Values of fields -/

/-- A field's value: what the document gives decodes to it, or the document gives nothing and it is
the default. -/
def Given {α : Type} (x? : Option Json) (Is : Json → α → Prop) (missing v : α) : Prop :=
  x?.elim (v = missing) (Is · v)

theorem field?_eq_some_iff {α : Type} {read : Json → Option α} {Is : Json → α → Prop}
    (hread : ∀ x v, read x = some v ↔ Is x v) {fields : List (String × Json)} {name : String}
    {missing v : α} :
    field? fields name read missing = some v ↔ Given (fields.lookup name) Is missing v := by
  unfold field? Given
  rcases fields.lookup name with _ | x
  · exact ⟨fun h => (Option.some.inj h).symm, fun h => congrArg some h.symm⟩
  · exact hread x v

/-- A field of a document that is read. -/
theorem field?_given {α : Type} {read : Json → Option α} {Is : Json → α → Prop}
    (hread : ∀ x v, read x = some v ↔ Is x v) {names : List String} {j : Json}
    {fields : List (String × Json)} (hf : j.fields? names = some fields) {name : String}
    (hn : name ∈ names) {missing v : α} :
    field? fields name read missing = some v ↔ Given (j.given names name) Is missing v := by
  rw [field?_eq_some_iff hread, (fields?_eq_some hf).2 name hn]

/-- The value of a document's only member. -/
theorem Given.of_single {α : Type} {Is : Json → α → Prop} {names : List String} {name : String}
    {x : Json} {missing v : α}
    (h : Given ((object [(some name, x)]).given names name) Is missing v) : Is x v := by
  simpa [given, valuesOf, Given] using h

/-- A value of the field's type, if the document gives one. -/
def OfType {α : Type} (Is : Json → α → Prop) (x? : Option Json) : Prop :=
  ∀ x, x? = some x → ∃ v, Is x v

theorem OfType.exists_given {α : Type} {Is : Json → α → Prop} {x? : Option Json}
    (h : OfType Is x?) (missing : α) : ∃ v, Given x? Is missing v := by
  cases x? with
  | none => exact ⟨missing, rfl⟩
  | some x => exact h x rfl

theorem OfType.ne_null {α : Type} {Is : Json → α → Prop} {x? : Option Json} (h : OfType Is x?)
    (hnull : ∀ v, ¬ Is .null v) : x? ≠ some .null := by
  rintro rfl
  obtain ⟨v, hv⟩ := h .null rfl
  exact hnull v hv

theorem Given.ofType {α : Type} {Is : Json → α → Prop} {missing v : α} {x? : Option Json}
    (h : Given x? Is missing v) : OfType Is x? := by
  rintro x rfl
  exact ⟨v, h⟩

/-- A record is read field by field. A document is read if it can stand for the record and gives
every field a value of the field's type or none, `null` being no value of any; and each field is
then what the document gives, or the default. -/
structure ReadsByField {α : Type} (read : Json → Option α) (names : List String)
    (HasTypes : (String → Option Json) → Prop) (GivenBy : α → (String → Option Json) → Prop) :
    Prop where
  isSome_iff (j : Json) :
    (read j).isSome ↔ j.IsRecord names ∧ HasTypes fun name => j.given names name
  eq_some_iff (j : Json) (a : α) :
    read j = some a ↔ j.IsRecord names ∧ GivenBy a fun name => j.given names name
  ne_null (j : Json) (h : (read j).isSome) : ∀ name ∈ names, j.given names name ≠ some .null

theorem ReadsByField.of_eq_some_iff {α : Type} {read : Json → Option α} {names : List String}
    {HasTypes : (String → Option Json) → Prop} {GivenBy : α → (String → Option Json) → Prop}
    (heq : ∀ j a, read j = some a ↔ j.IsRecord names ∧ GivenBy a fun name => j.given names name)
    (hexists : ∀ get, HasTypes get ↔ ∃ a, GivenBy a get)
    (hnull : ∀ get, HasTypes get → ∀ name ∈ names, get name ≠ some .null) :
    ReadsByField read names HasTypes GivenBy := by
  have hsome : ∀ j, (read j).isSome ↔ j.IsRecord names ∧ HasTypes fun name => j.given names name :=
    fun j => by simp only [Option.isSome_iff_exists, heq, exists_and_left, hexists]
  exact ⟨hsome, heq, fun j h => hnull _ ((hsome j).1 h).2⟩

/-- The value of a field is the default one: an object of this member alone is read as the default
record. -/
def IsDefaultOf {α : Type} (read : Json → Option α) (missing : α) (name : String) (x : Json) :
    Prop :=
  read (.object [(some name, x)]) = some missing

/-- The document is an array whose items are, one by one, those of a list. -/
def IsListOf {α : Type} (Is : Json → α → Prop) (j : Json) (vs : List α) : Prop :=
  ∃ items, j = .array items ∧ List.Forall₂ Is items vs

theorem list?_eq_some_iff {α : Type} {read : Json → Option α} (j : Json) (vs : List α) :
    list? read j = some vs ↔ j.IsListOf (fun x v => read x = some v) vs := by
  cases j with
  | array items => simp [list?, items?, IsListOf, mapM_eq_some_iff]
  | _ => simp [list?, items?, IsListOf]

/-- An item is replaced by another of the same value. -/
theorem IsListOf.set {α : Type} {Is : Json → α → Prop} {items : List Json} {vs : List α}
    (h : (array items).IsListOf Is vs) {i : Nat} {x x' : Json} (hx : items[i]? = some x)
    (hsame : ∀ v, Is x v → Is x' v) : (array (items.set i x')).IsListOf Is vs := by
  obtain ⟨_, heq, hall⟩ := h
  obtain rfl := Json.array.inj heq
  clear heq
  refine ⟨_, rfl, ?_⟩
  induction hall generalizing i with
  | nil => cases hx
  | @cons y v items vs hy hall ih =>
    cases i with
    | zero =>
      obtain rfl := Option.some.inj hx
      exact .cons (hsame v hy) hall
    | succ i => exact .cons hy (ih hx)

/-- The document is a text. -/
def IsText (j : Json) (s : String) : Prop := j = .string (some s)

theorem text?_eq_some_iff (j : Json) (s : String) : j.text? = some s ↔ j.IsText s := by
  cases j <;> simp [text?, IsText]

/-- The document is a number that spells an integer: digits alone, after a minus sign if it is
negative. -/
inductive IsInteger : Json → Int → Prop
  | plain {ds : List Char} (hne : ds ≠ []) (hd : Decimal.IsDigits ds) :
      IsInteger (.number (String.ofList ds)) (Nat.ofDigitChars 10 ds 0)
  | negative {ds : List Char} (hne : ds ≠ []) (hd : Decimal.IsDigits ds)
      (hpos : Nat.ofDigitChars 10 ds 0 ≠ 0) :
      IsInteger (.number (String.ofList ('-' :: ds))) (-(Nat.ofDigitChars 10 ds 0))

theorem natural?_eq_some_iff {cs : List Char} {n : Nat} :
    natural? cs = some n ↔ cs ≠ [] ∧ Decimal.IsDigits cs ∧ Nat.ofDigitChars 10 cs 0 = n := by
  have hread : ∀ (cs : List Char) (m : Nat),
      cs.foldlM (fun n c => (Decimal.digit? c).map (10 * n + ·)) m = some n ↔
        Decimal.IsDigits cs ∧ Nat.ofDigitChars 10 cs m = n := by
    intro cs
    induction cs with
    | nil => simp [Decimal.IsDigits]
    | cons c cs ih =>
      intro m
      rw [List.foldlM_cons, Decimal.isDigits_cons]
      cases hc : c.isDigit with
      | false => simp [Decimal.digit?_of_not_isDigit hc]
      | true =>
        rw [Decimal.digit?_of_isDigit hc, Nat.ofDigitChars_cons]
        simp only [true_and]
        exact ih _
  by_cases hne : cs = []
  · subst hne
    constructor
    · intro h
      cases h
    · exact fun h => absurd rfl h.1
  · rw [natural?, if_neg (by rwa [List.isEmpty_iff]), hread]
    exact ⟨fun h => ⟨hne, h⟩, fun h => h.2⟩

theorem integer?_number (s : String) :
    (number s).integer? = match s.toList with
      | '-' :: ds => (natural? ds).bind fun n => if n = 0 then none else some (-n)
      | ds => (natural? ds).map Int.ofNat := rfl

theorem integer?_eq_some_iff (j : Json) (v : Int) : j.integer? = some v ↔ j.IsInteger v := by
  constructor
  · intro h
    cases j with
    | number s =>
      obtain ⟨cs, rfl⟩ : ∃ cs, s = String.ofList cs := ⟨s.toList, String.ofList_toList.symm⟩
      rw [integer?_number, String.toList_ofList] at h
      split at h
      · obtain ⟨n, hn, h⟩ := Option.bind_eq_some_iff.1 h
        obtain ⟨hne, hd, rfl⟩ := natural?_eq_some_iff.1 hn
        split at h
        · cases h
        · rename_i hpos
          obtain rfl := Option.some.inj h
          exact .negative hne hd hpos
      · obtain ⟨n, hn, rfl⟩ := Option.map_eq_some_iff.1 h
        obtain ⟨hne, hd, rfl⟩ := natural?_eq_some_iff.1 hn
        exact .plain hne hd
    | _ => cases h
  · intro h
    cases h with
    | @plain ds hne hd =>
      have hn := natural?_eq_some_iff.2 ⟨hne, hd, rfl⟩
      rw [integer?_number, String.toList_ofList]
      split
      · exact absurd hd (Decimal.not_isDigits_sign (.inr rfl))
      · rw [hn]
        rfl
    | negative hne hd hpos =>
      have hn := natural?_eq_some_iff.2 ⟨hne, hd, rfl⟩
      rw [integer?_number, String.toList_ofList]
      simp only [hn, Option.bind_some, if_neg hpos]

/-- A word's field holds an integer in the word's range. -/
theorem integerIn?_eq_some_iff {low high v : Int} {j : Json} :
    j.integerIn? low high = some v ↔ j.IsInteger v ∧ low ≤ v ∧ v < high := by
  rw [← integer?_eq_some_iff]
  simp only [integerIn?, Option.bind_eq_bind, Option.bind_eq_some_iff]
  constructor
  · rintro ⟨n, hn, h⟩
    split at h
    · obtain rfl := Option.some.inj h
      exact ⟨hn, ‹_›⟩
    · cases h
  · rintro ⟨hn, hv⟩
    exact ⟨v, hn, if_pos hv⟩

theorem uint32?_eq_some_iff (j : Json) (w : UInt32) :
    j.uint32? = some w ↔ j.IsInteger w.toNat := by
  have hlt := w.toNat_lt
  rw [uint32?, Option.map_eq_some_iff]
  constructor
  · rintro ⟨v, hv, rfl⟩
    obtain ⟨hv, hlow, hhigh⟩ := integerIn?_eq_some_iff.1 hv
    rwa [UInt32.toNat_ofNat_of_lt' (by change v.toNat < 2 ^ 32; omega), Int.toNat_of_nonneg hlow]
  · intro h
    exact ⟨w.toNat, integerIn?_eq_some_iff.2 ⟨h, by omega, by omega⟩, by simp⟩

theorem uint64?_eq_some_iff (j : Json) (w : UInt64) :
    j.uint64? = some w ↔ j.IsInteger w.toNat := by
  have hlt := w.toNat_lt
  rw [uint64?, Option.map_eq_some_iff]
  constructor
  · rintro ⟨v, hv, rfl⟩
    obtain ⟨hv, hlow, hhigh⟩ := integerIn?_eq_some_iff.1 hv
    rwa [UInt64.toNat_ofNat_of_lt' (by change v.toNat < 2 ^ 64; omega), Int.toNat_of_nonneg hlow]
  · intro h
    exact ⟨w.toNat, integerIn?_eq_some_iff.2 ⟨h, by omega, by omega⟩, by simp⟩

theorem int64?_eq_some_iff (j : Json) (w : Int64) : j.int64? = some w ↔ j.IsInteger w.toInt := by
  have hlow := w.le_toInt
  have hhigh := w.toInt_lt
  rw [int64?, Option.map_eq_some_iff]
  constructor
  · rintro ⟨v, hv, rfl⟩
    obtain ⟨hv, hlow, hhigh⟩ := integerIn?_eq_some_iff.1 hv
    rwa [Int64.toInt_ofInt_of_le (by omega) (by omega)]
  · intro h
    exact ⟨w.toInt, integerIn?_eq_some_iff.2 ⟨h, by omega, by omega⟩, w.ofInt_toInt⟩

/-! ## Restylings -/

/-- What can become of a field's value in another document of the record, where `IsDefault` are the
documents of its default and `Inner` is what can become of the value by itself. -/
inductive Kept (IsDefault : Json → Prop) (Inner : Json → Json → Prop) :
    Option Json → Option Json → Prop
  | same (x? : Option Json) : Kept IsDefault Inner x? x?
  | omitted {x : Json} (h : IsDefault x) : Kept IsDefault Inner (some x) none
  | written {x : Json} (h : IsDefault x) : Kept IsDefault Inner none (some x)
  | inner {x x' : Json} (h : Inner x x') : Kept IsDefault Inner (some x) (some x')

/-- A field keeps its value through all of it. -/
theorem Given.kept {α : Type} {read : Json → Option α} {Is : Json → α → Prop}
    (hread : ∀ x v, read x = some v ↔ Is x v) {IsDefault : Json → Prop}
    {Inner : Json → Json → Prop} {missing v : α} {x? x?' : Option Json}
    (h : Given x? Is missing v) (hk : Kept IsDefault Inner x? x?')
    (hdefault : ∀ x, IsDefault x → Is x missing)
    (hinner : ∀ x x' v, Inner x x' → Is x v → Is x' v) : Given x?' Is missing v := by
  cases hk with
  | same => exact h
  | @omitted x hd =>
    have hv := (hread x v).2 h
    rw [(hread x missing).2 (hdefault x hd)] at hv
    exact (Option.some.inj hv).symm
  | written hd =>
    obtain rfl : v = missing := h
    exact hdefault _ hd
  | inner hi => exact hinner _ _ _ hi h

/-- Another way to write the document of a record. `IsDefault` are the documents of the default of a
field, and `Inner` is another way to write a field's value. -/
inductive Restyled (names : List String) (IsDefault : String → Json → Prop)
    (Inner : String → Json → Json → Prop) : Json → Json → Prop
  /-- The members in another order. -/
  | reorder {members members' : List (Option String × Json)} (h : members.Perm members') :
      Restyled names IsDefault Inner (.object members) (.object members')
  /-- A member more that the record does not know. -/
  | add (before after : List (Option String × Json)) {name : String} (x : Json)
      (h : name ∉ names) :
      Restyled names IsDefault Inner (.object (before ++ after))
        (.object (before ++ (some name, x) :: after))
  /-- A member less that the record does not know. -/
  | remove (before after : List (Option String × Json)) {name : String} (x : Json)
      (h : name ∉ names) :
      Restyled names IsDefault Inner (.object (before ++ (some name, x) :: after))
        (.object (before ++ after))
  /-- Without a field that has its default. -/
  | drop (before after : List (Option String × Json)) {name : String} {x : Json}
      (h : IsDefault name x) :
      Restyled names IsDefault Inner (.object (before ++ (some name, x) :: after))
        (.object (before ++ after))
  /-- The array of the fields in declared order, those missing written with their defaults, or cut
  short before fields that all have them. -/
  | list {members : List (Option String × Json)} {items : List Json}
      (hl : items.length ≤ names.length)
      (h : ∀ name ∈ names, Kept (IsDefault name) (Inner name) ((object members).given names name)
        ((array items).given names name)) :
      Restyled names IsDefault Inner (.object members) (.array items)
  /-- A member's value written another way. -/
  | member (before after : List (Option String × Json)) {name : String} {x x' : Json}
      (h : Inner name x x') :
      Restyled names IsDefault Inner (.object (before ++ (some name, x) :: after))
        (.object (before ++ (some name, x') :: after))
  /-- An item written another way. -/
  | item {items : List Json} {i : Nat} {name : String} {x x' : Json}
      (hname : names[i]? = some name) (hx : items[i]? = some x) (h : Inner name x x') :
      Restyled names IsDefault Inner (.array items) (.array (items.set i x'))

theorem valuesOf_insert (n name : String) (x : Json) (before after : List (Option String × Json)) :
    valuesOf n (before ++ (some name, x) :: after) =
      valuesOf n before ++ ((if name = n then [x] else []) ++ valuesOf n after) := by
  unfold valuesOf
  rw [List.filter_append, List.map_append, List.filter_cons]
  by_cases h : name = n <;> simp [h]

theorem valuesOf_append (n : String) (before after : List (Option String × Json)) :
    valuesOf n (before ++ after) = valuesOf n before ++ valuesOf n after := by
  rw [valuesOf, List.filter_append, List.map_append]
  rfl

theorem valuesOf_insert_of_ne {n name : String} (h : name ≠ n) (x : Json)
    (before after : List (Option String × Json)) :
    valuesOf n (before ++ (some name, x) :: after) = valuesOf n (before ++ after) := by
  rw [valuesOf_insert, if_neg h, List.nil_append, valuesOf_append]

/-- A member of a known name is the only one of its name. -/
theorem valuesOf_insert_self {name : String} {x : Json} {before after : List (Option String × Json)}
    (h : (valuesOf name (before ++ (some name, x) :: after)).length ≤ 1) :
    valuesOf name (before ++ after) = [] ∧
      ∀ x', valuesOf name (before ++ (some name, x') :: after) = [x'] := by
  rw [valuesOf_insert, if_pos rfl] at h
  simp only [List.length_append, List.length_singleton] at h
  have hbefore : valuesOf name before = [] := List.length_eq_zero_iff.1 (by omega)
  have hafter : valuesOf name after = [] := List.length_eq_zero_iff.1 (by omega)
  refine ⟨?_, fun x' => ?_⟩
  · rw [valuesOf_append, hbefore, hafter, List.append_nil]
  · rw [valuesOf_insert, if_pos rfl, hbefore, hafter, List.nil_append, List.append_nil]

theorem valuesOf_perm {members members' : List (Option String × Json)}
    (h : members.Perm members') {name : String} (hone : (valuesOf name members).length ≤ 1) :
    valuesOf name members' = valuesOf name members := by
  have hperm : (valuesOf name members).Perm (valuesOf name members') :=
    (h.filter _).map _
  rcases hv : valuesOf name members with _ | ⟨x, _ | _⟩ <;> rw [hv] at hperm hone
  · exact hperm.symm.eq_nil
  · exact (List.singleton_perm.1 hperm).symm
  · simp at hone

theorem texts_insert {before after : List (Option String × Json)} (name : String) (x : Json) :
    (∀ m ∈ before ++ (some name, x) :: after, m.1 ≠ none) ↔ ∀ m ∈ before ++ after, m.1 ≠ none := by
  simp only [List.forall_mem_append, List.forall_mem_cons, ne_eq, reduceCtorEq,
    not_false_eq_true, true_and]

section
variable {names : List String}

/-- A member that the record does not know makes no difference to it. -/
theorem isRecord_insert_of_not_mem {name : String} (h : name ∉ names) (x : Json)
    (before after : List (Option String × Json)) :
    (object (before ++ (some name, x) :: after)).IsRecord names ↔
      (object (before ++ after)).IsRecord names := by
  refine and_congr (texts_insert name x) (forall₂_congr fun n hn => ?_)
  rw [valuesOf_insert_of_ne (ne_of_mem_of_not_mem hn h).symm]

theorem given_array (hnames : names.Nodup) {i : Nat} {name : String} (hi : names[i]? = some name)
    (items : List Json) : (array items).given names name = items[i]? := by
  obtain ⟨hlt, rfl⟩ := List.getElem?_eq_some_iff.1 hi
  rw [given, hnames.idxOf_getElem i hlt]

variable {IsDefault : String → Json → Prop} {Inner : String → Json → Json → Prop}

/-- Another way to write the document of a record is another document of the record. -/
theorem Restyled.isRecord {j j' : Json} (h : Restyled names IsDefault Inner j j')
    (hr : j.IsRecord names) : j'.IsRecord names := by
  cases h with
  | reorder hperm =>
    obtain ⟨htexts, honce⟩ := hr
    refine ⟨fun m hm => htexts m (hperm.mem_iff.2 hm), fun n hn => ?_⟩
    rw [valuesOf_perm hperm (honce n hn)]
    exact honce n hn
  | add before after x hunknown => exact (isRecord_insert_of_not_mem hunknown x before after).2 hr
  | remove before after x hunknown =>
    exact (isRecord_insert_of_not_mem hunknown x before after).1 hr
  | @drop before after name x =>
    refine ⟨(texts_insert name x).1 hr.1, fun n hn => ?_⟩
    have honce := hr.2 n hn
    rw [valuesOf_insert, List.length_append, List.length_append] at honce
    rw [valuesOf_append, List.length_append]
    omega
  | list hl => exact hl
  | @member before after name x x' =>
    refine ⟨(texts_insert name x').2 ((texts_insert name x).1 hr.1), fun n hn => ?_⟩
    have honce := hr.2 n hn
    rw [valuesOf_insert] at honce ⊢
    split <;> rename_i heq <;> simpa [heq] using honce
  | @item items i =>
    show (items.set i _).length ≤ names.length
    rw [List.length_set]
    exact hr

/-- It gives every field what can become of the field's value. -/
theorem Restyled.kept (hnames : names.Nodup) {j j' : Json}
    (h : Restyled names IsDefault Inner j j') (hr : j.IsRecord names) {n : String}
    (hn : n ∈ names) : Kept (IsDefault n) (Inner n) (j.given names n) (j'.given names n) := by
  cases h with
  | reorder hperm =>
    simp only [given, valuesOf_perm hperm (hr.2 n hn)]
    exact .same _
  | add before after x hunknown =>
    simp only [given, valuesOf_insert_of_ne (ne_of_mem_of_not_mem hn hunknown).symm]
    exact .same _
  | remove before after x hunknown =>
    simp only [given, valuesOf_insert_of_ne (ne_of_mem_of_not_mem hn hunknown).symm]
    exact .same _
  | @drop before after name x hdefault =>
    by_cases hname : name = n
    · subst hname
      obtain ⟨hwithout, hwith⟩ := valuesOf_insert_self (hr.2 name hn)
      simp only [given, hwithout, hwith]
      exact .omitted hdefault
    · simp only [given, valuesOf_insert_of_ne hname]
      exact .same _
  | list _ hkept => exact hkept n hn
  | @member before after name x x' hinner =>
    by_cases hname : name = n
    · subst hname
      obtain ⟨-, hwith⟩ := valuesOf_insert_self (hr.2 name hn)
      simp only [given, hwith]
      exact .inner hinner
    · simp only [given, valuesOf_insert_of_ne hname]
      exact .same _
  | @item items i name x x' hi hx hinner =>
    obtain ⟨k, hk⟩ := List.getElem?_of_mem hn
    rw [given_array hnames hk, given_array hnames hk, List.getElem?_set]
    split
    · rename_i heq
      subst heq
      obtain rfl : name = n := Option.some.inj (hi.symm.trans hk)
      rw [if_pos (List.getElem?_eq_some_iff.1 hx).1, hx]
      exact .inner hinner
    · exact .same _

/-- The same is read of a document written another way, if a record's fields are given by whatever
can become of what gave them before. -/
theorem ReadsByField.restyled {α : Type} {read : Json → Option α}
    {HasTypes : (String → Option Json) → Prop} {GivenBy : α → (String → Option Json) → Prop}
    (hread : ReadsByField read names HasTypes GivenBy) (hnames : names.Nodup) {missing : α}
    (hkept : ∀ {a get get'}, GivenBy a get →
      (∀ {name x}, IsDefaultOf read missing name x →
        GivenBy missing fun n => (object [(some name, x)]).given names n) →
      (∀ name ∈ names, Kept (IsDefaultOf read missing name) (Inner name) (get name) (get' name)) →
      GivenBy a get')
    {j j' : Json} (h : Restyled names (IsDefaultOf read missing) Inner j j') {a : α}
    (hj : read j = some a) : read j' = some a := by
  obtain ⟨hr, hg⟩ := (hread.eq_some_iff j a).1 hj
  refine (hread.eq_some_iff j' a).2 ⟨h.isRecord hr, hkept hg (fun hd => ?_) fun _ hn =>
    h.kept hnames hr hn⟩
  exact ((hread.eq_some_iff _ missing).1 hd).2

end

end ReplicaRouter.Json
