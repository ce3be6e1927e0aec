import ReplicaRouter.Proofs.Json.Fields
import ReplicaRouter.Settings.Codec

/-! # Reading settings field by field

What is read of a document of settings, of an endpoint and of a rule, told by the fields that the
document gives (`Settings.readsByField`, `Endpoint.readsByField`, `ShardRule.readsByField`). The
same is read of the document written another way (`Settings.ofJson?_restyled`), where the settings
hold endpoints and rules that can be written another way themselves (`Settings.Inner`).
-/

namespace ReplicaRouter

open Json

/-! ## Endpoints -/

namespace Endpoint

/-- The endpoint's fields are those that a document gives, and the defaults where it gives none. -/
structure GivenBy (e : Endpoint) (get : String → Option Json) : Prop where
  addr : Given (get "addr") IsText "" e.addr
  user : Given (get "user") IsText "" e.user
  password : Given (get "password") IsText "" e.password
  timezone : Given (get "timezone") IsText "Local" e.timezone
  weight : Given (get "weight") (fun x w => x.IsInteger w.toNat) 1 e.weight

/-- What a document gives has the types of the endpoint's fields. -/
structure HasTypes (get : String → Option Json) : Prop where
  addr : OfType IsText (get "addr")
  user : OfType IsText (get "user")
  password : OfType IsText (get "password")
  timezone : OfType IsText (get "timezone")
  weight : OfType (fun x (w : UInt32) => x.IsInteger w.toNat) (get "weight")

theorem hasTypes_iff_exists {get : String → Option Json} :
    HasTypes get ↔ ∃ e : Endpoint, e.GivenBy get := by
  constructor
  · intro h
    obtain ⟨addr, haddr⟩ := h.addr.exists_given ""
    obtain ⟨user, huser⟩ := h.user.exists_given ""
    obtain ⟨password, hpassword⟩ := h.password.exists_given ""
    obtain ⟨timezone, htimezone⟩ := h.timezone.exists_given "Local"
    obtain ⟨weight, hweight⟩ := h.weight.exists_given 1
    exact ⟨{ addr, user, password, timezone, weight },
      haddr, huser, hpassword, htimezone, hweight⟩
  · rintro ⟨e, h⟩
    exact ⟨h.addr.ofType, h.user.ofType, h.password.ofType, h.timezone.ofType, h.weight.ofType⟩

theorem HasTypes.ne_null {get : String → Option Json} (h : HasTypes get) :
    ∀ name ∈ fieldNames, get name ≠ some .null := by
  simp only [fieldNames, List.forall_mem_cons]
  exact ⟨h.addr.ne_null nofun, h.user.ne_null nofun, h.password.ne_null nofun,
    h.timezone.ne_null nofun, h.weight.ne_null nofun, nofun⟩

theorem ofJson?_eq_some_iff {j : Json} {e : Endpoint} :
    ofJson? j = some e ↔ j.IsRecord fieldNames ∧ e.GivenBy fun name => j.given fieldNames name := by
  simp only [ofJson?, Option.bind_eq_bind, Option.bind_eq_some_iff, Option.pure_def,
    Option.some.injEq]
  constructor
  · rintro ⟨fields, hf, _, haddr, _, huser, _, hpassword, _, htimezone, _, hweight, rfl⟩
    exact ⟨(fields?_eq_some hf).1,
      (field?_given text?_eq_some_iff hf (by decide)).1 haddr,
      (field?_given text?_eq_some_iff hf (by decide)).1 huser,
      (field?_given text?_eq_some_iff hf (by decide)).1 hpassword,
      (field?_given text?_eq_some_iff hf (by decide)).1 htimezone,
      (field?_given uint32?_eq_some_iff hf (by decide)).1 hweight⟩
  · rintro ⟨hr, h⟩
    obtain ⟨fields, hf⟩ := exists_fields? hr
    exact ⟨fields, hf,
      _, (field?_given text?_eq_some_iff hf (by decide)).2 h.addr,
      _, (field?_given text?_eq_some_iff hf (by decide)).2 h.user,
      _, (field?_given text?_eq_some_iff hf (by decide)).2 h.password,
      _, (field?_given text?_eq_some_iff hf (by decide)).2 h.timezone,
      _, (field?_given uint32?_eq_some_iff hf (by decide)).2 h.weight, rfl⟩

theorem readsByField : ReadsByField ofJson? fieldNames HasTypes GivenBy :=
  .of_eq_some_iff (fun _ _ => ofJson?_eq_some_iff) (fun _ => hasTypes_iff_exists)
    fun _ => HasTypes.ne_null

/-- Another way to write an endpoint's document. Its fields hold no records. -/
def Restyled : Json → Json → Prop :=
  Json.Restyled fieldNames (IsDefaultOf ofJson? {}) fun _ _ _ => False

theorem ofJson?_restyled {j j' : Json} {e : Endpoint} (h : Restyled j j')
    (hj : ofJson? j = some e) : ofJson? j' = some e := by
  refine readsByField.restyled (by decide) (fun hg hdefault hk => ?_) h hj
  exact ⟨
    hg.addr.kept text?_eq_some_iff (hk _ (by decide))
      (fun _ hd => (hdefault hd).addr.of_single) nofun,
    hg.user.kept text?_eq_some_iff (hk _ (by decide))
      (fun _ hd => (hdefault hd).user.of_single) nofun,
    hg.password.kept text?_eq_some_iff (hk _ (by decide))
      (fun _ hd => (hdefault hd).password.of_single) nofun,
    hg.timezone.kept text?_eq_some_iff (hk _ (by decide))
      (fun _ hd => (hdefault hd).timezone.of_single) nofun,
    hg.weight.kept uint32?_eq_some_iff (hk _ (by decide))
      (fun _ hd => (hdefault hd).weight.of_single) nofun⟩

end Endpoint

/-! ## Rules -/

namespace ShardRule

/-- The rule's fields are those that a document gives, and the defaults where it gives none. -/
structure GivenBy (r : ShardRule) (get : String → Option Json) : Prop where
  db : Given (get "db") IsText "" r.db
  table : Given (get "table") IsText "" r.table
  modulus : Given (get "mod_num") (fun x w => x.IsInteger w.toInt) 0 r.modulus
  ranges : Given (get "locations") (fun x w => x.IsInteger w.toInt) 0 r.ranges
  tag : Given (get "type") IsText "" r.tag
  rangeWidth : Given (get "table_row_limit") (fun x w => x.IsInteger w.toInt) 0 r.rangeWidth

/-- What a document gives has the types of the rule's fields. -/
structure HasTypes (get : String → Option Json) : Prop where
  db : OfType IsText (get "db")
  table : OfType IsText (get "table")
  modulus : OfType (fun x (w : Int64) => x.IsInteger w.toInt) (get "mod_num")
  ranges : OfType (fun x (w : Int64) => x.IsInteger w.toInt) (get "locations")
  tag : OfType IsText (get "type")
  rangeWidth : OfType (fun x (w : Int64) => x.IsInteger w.toInt) (get "table_row_limit")

theorem hasTypes_iff_exists {get : String → Option Json} :
    HasTypes get ↔ ∃ r : ShardRule, r.GivenBy get := by
  constructor
  · intro h
    obtain ⟨db, hdb⟩ := h.db.exists_given ""
    obtain ⟨table, htable⟩ := h.table.exists_given ""
    obtain ⟨modulus, hmodulus⟩ := h.modulus.exists_given 0
    obtain ⟨ranges, hranges⟩ := h.ranges.exists_given 0
    obtain ⟨tag, htag⟩ := h.tag.exists_given ""
    obtain ⟨rangeWidth, hwidth⟩ := h.rangeWidth.exists_given 0
    exact ⟨{ db, table, modulus, ranges, tag, rangeWidth },
      hdb, htable, hmodulus, hranges, htag, hwidth⟩
  · rintro ⟨r, h⟩
    exact ⟨h.db.ofType, h.table.ofType, h.modulus.ofType, h.ranges.ofType, h.tag.ofType,
      h.rangeWidth.ofType⟩

theorem HasTypes.ne_null {get : String → Option Json} (h : HasTypes get) :
    ∀ name ∈ fieldNames, get name ≠ some .null := by
  simp only [fieldNames, List.forall_mem_cons]
  exact ⟨h.db.ne_null nofun, h.table.ne_null nofun, h.modulus.ne_null nofun,
    h.ranges.ne_null nofun, h.tag.ne_null nofun, h.rangeWidth.ne_null nofun, nofun⟩

theorem ofJson?_eq_some_iff {j : Json} {r : ShardRule} :
    ofJson? j = some r ↔ j.IsRecord fieldNames ∧ r.GivenBy fun name => j.given fieldNames name := by
  simp only [ofJson?, Option.bind_eq_bind, Option.bind_eq_some_iff, Option.pure_def,
    Option.some.injEq]
  constructor
  · rintro ⟨fields, hf, _, hdb, _, htable, _, hmodulus, _, hranges, _, htag, _, hwidth, rfl⟩
    exact ⟨(fields?_eq_some hf).1,
      (field?_given text?_eq_some_iff hf (by decide)).1 hdb,
      (field?_given text?_eq_some_iff hf (by decide)).1 htable,
      (field?_given int64?_eq_some_iff hf (by decide)).1 hmodulus,
      (field?_given int64?_eq_some_iff hf (by decide)).1 hranges,
      (field?_given text?_eq_some_iff hf (by decide)).1 htag,
      (field?_given int64?_eq_some_iff hf (by decide)).1 hwidth⟩
  · rintro ⟨hr, h⟩
    obtain ⟨fields, hf⟩ := exists_fields? hr
    exact ⟨fields, hf,
      _, (field?_given text?_eq_some_iff hf (by decide)).2 h.db,
      _, (field?_given text?_eq_some_iff hf (by decide)).2 h.table,
      _, (field?_given int64?_eq_some_iff hf (by decide)).2 h.modulus,
      _, (field?_given int64?_eq_some_iff hf (by decide)).2 h.ranges,
      _, (field?_given text?_eq_some_iff hf (by decide)).2 h.tag,
      _, (field?_given int64?_eq_some_iff hf (by decide)).2 h.rangeWidth, rfl⟩

theorem readsByField : ReadsByField ofJson? fieldNames HasTypes GivenBy :=
  .of_eq_some_iff (fun _ _ => ofJson?_eq_some_iff) (fun _ => hasTypes_iff_exists)
    fun _ => HasTypes.ne_null

/-- Another way to write a rule's document. Its fields hold no records. -/
def Restyled : Json → Json → Prop :=
  Json.Restyled fieldNames (IsDefaultOf ofJson? {}) fun _ _ _ => False

theorem ofJson?_restyled {j j' : Json} {r : ShardRule} (h : Restyled j j')
    (hj : ofJson? j = some r) : ofJson? j' = some r := by
  refine readsByField.restyled (by decide) (fun hg hdefault hk => ?_) h hj
  exact ⟨
    hg.db.kept text?_eq_some_iff (hk _ (by decide))
      (fun _ hd => (hdefault hd).db.of_single) nofun,
    hg.table.kept text?_eq_some_iff (hk _ (by decide))
      (fun _ hd => (hdefault hd).table.of_single) nofun,
    hg.modulus.kept int64?_eq_some_iff (hk _ (by decide))
      (fun _ hd => (hdefault hd).modulus.of_single) nofun,
    hg.ranges.kept int64?_eq_some_iff (hk _ (by decide))
      (fun _ hd => (hdefault hd).ranges.of_single) nofun,
    hg.tag.kept text?_eq_some_iff (hk _ (by decide))
      (fun _ hd => (hdefault hd).tag.of_single) nofun,
    hg.rangeWidth.kept int64?_eq_some_iff (hk _ (by decide))
      (fun _ hd => (hdefault hd).rangeWidth.of_single) nofun⟩

end ShardRule

/-! ## Settings -/

namespace Settings

/-- The settings' fields are those that a document gives, and the defaults where it gives none. -/
structure GivenBy (s : Settings) (get : String → Option Json) : Prop where
  name : Given (get "name") IsText "" s.name
  maxOpen : Given (get "max_conn_num") (fun x w => x.IsInteger w.toNat) 0 s.maxOpen
  maxIdle : Given (get "max_idle_conns") (fun x w => x.IsInteger w.toNat) 2 s.maxIdle
  maxLifetime : Given (get "max_lifetime") (fun x w => x.IsInteger w.toNat) 0 s.maxLifetime
  master : Given (get "master") (fun x e => Endpoint.ofJson? x = some e) {} s.master
  replicas : Given (get "slave") (IsListOf fun x e => Endpoint.ofJson? x = some e) [] s.replicas
  rules : Given (get "shard") (IsListOf fun x r => ShardRule.ofJson? x = some r) [] s.rules
  checkInterval :
    Given (get "check_interval_ms") (fun x w => x.IsInteger w.toNat) 30000 s.checkInterval

/-- What a document gives has the types of the settings' fields: endpoints and rules are readable
themselves. -/
structure HasTypes (get : String → Option Json) : Prop where
  name : OfType IsText (get "name")
  maxOpen : OfType (fun x (w : UInt32) => x.IsInteger w.toNat) (get "max_conn_num")
  maxIdle : OfType (fun x (w : UInt32) => x.IsInteger w.toNat) (get "max_idle_conns")
  maxLifetime : OfType (fun x (w : UInt64) => x.IsInteger w.toNat) (get "max_lifetime")
  master : OfType (fun x e => Endpoint.ofJson? x = some e) (get "master")
  replicas : OfType (IsListOf fun x e => Endpoint.ofJson? x = some e) (get "slave")
  rules : OfType (IsListOf fun x r => ShardRule.ofJson? x = some r) (get "shard")
  checkInterval : OfType (fun x (w : UInt64) => x.IsInteger w.toNat) (get "check_interval_ms")

theorem hasTypes_iff_exists {get : String → Option Json} :
    HasTypes get ↔ ∃ s : Settings, s.GivenBy get := by
  constructor
  · intro h
    obtain ⟨name, hname⟩ := h.name.exists_given ""
    obtain ⟨maxOpen, hopen⟩ := h.maxOpen.exists_given 0
    obtain ⟨maxIdle, hidle⟩ := h.maxIdle.exists_given 2
    obtain ⟨maxLifetime, hlife⟩ := h.maxLifetime.exists_given 0
    obtain ⟨master, hmaster⟩ := h.master.exists_given {}
    obtain ⟨replicas, hreplicas⟩ := h.replicas.exists_given []
    obtain ⟨rules, hrules⟩ := h.rules.exists_given []
    obtain ⟨checkInterval, hcheck⟩ := h.checkInterval.exists_given 30000
    exact ⟨{ name, maxOpen, maxIdle, maxLifetime, master, replicas, rules, checkInterval },
      hname, hopen, hidle, hlife, hmaster, hreplicas, hrules, hcheck⟩
  · rintro ⟨s, h⟩
    exact ⟨h.name.ofType, h.maxOpen.ofType, h.maxIdle.ofType, h.maxLifetime.ofType,
      h.master.ofType, h.replicas.ofType, h.rules.ofType, h.checkInterval.ofType⟩

theorem HasTypes.ne_null {get : String → Option Json} (h : HasTypes get) :
    ∀ name ∈ fieldNames, get name ≠ some .null := by
  simp only [fieldNames, List.forall_mem_cons]
  exact ⟨h.name.ne_null nofun, h.maxOpen.ne_null nofun, h.maxIdle.ne_null nofun,
    h.maxLifetime.ne_null nofun, h.master.ne_null nofun, h.replicas.ne_null nofun,
    h.rules.ne_null nofun, h.checkInterval.ne_null nofun, nofun⟩

theorem ofJson?_eq_some_iff {j : Json} {s : Settings} :
    ofJson? j = some s ↔ j.IsRecord fieldNames ∧ s.GivenBy fun name => j.given fieldNames name := by
  simp only [ofJson?, Option.bind_eq_bind, Option.bind_eq_some_iff, Option.pure_def,
    Option.some.injEq]
  constructor
  · rintro ⟨fields, hf, _, hname, _, hopen, _, hidle, _, hlife, _, hmaster, _, hreplicas, _, hrules,
      _, hcheck, rfl⟩
    exact ⟨(fields?_eq_some hf).1,
      (field?_given text?_eq_some_iff hf (by decide)).1 hname,
      (field?_given uint32?_eq_some_iff hf (by decide)).1 hopen,
      (field?_given uint32?_eq_some_iff hf (by decide)).1 hidle,
      (field?_given uint64?_eq_some_iff hf (by decide)).1 hlife,
      (field?_given (fun _ _ => Iff.rfl) hf (by decide)).1 hmaster,
      (field?_given list?_eq_some_iff hf (by decide)).1 hreplicas,
      (field?_given list?_eq_some_iff hf (by decide)).1 hrules,
      (field?_given uint64?_eq_some_iff hf (by decide)).1 hcheck⟩
  · rintro ⟨hr, h⟩
    obtain ⟨fields, hf⟩ := exists_fields? hr
    exact ⟨fields, hf,
      _, (field?_given text?_eq_some_iff hf (by decide)).2 h.name,
      _, (field?_given uint32?_eq_some_iff hf (by decide)).2 h.maxOpen,
      _, (field?_given uint32?_eq_some_iff hf (by decide)).2 h.maxIdle,
      _, (field?_given uint64?_eq_some_iff hf (by decide)).2 h.maxLifetime,
      _, (field?_given (fun _ _ => Iff.rfl) hf (by decide)).2 h.master,
      _, (field?_given list?_eq_some_iff hf (by decide)).2 h.replicas,
      _, (field?_given list?_eq_some_iff hf (by decide)).2 h.rules,
      _, (field?_given uint64?_eq_some_iff hf (by decide)).2 h.checkInterval, rfl⟩

theorem readsByField : ReadsByField ofJson? fieldNames HasTypes GivenBy :=
  .of_eq_some_iff (fun _ _ => ofJson?_eq_some_iff) (fun _ => hasTypes_iff_exists)
    fun _ => HasTypes.ne_null

/-- Another way to write the value of a field: the master's endpoint, one of a replica or one of the
rules. -/
inductive Inner : String → Json → Json → Prop
  | master {x x' : Json} (h : Endpoint.Restyled x x') : Inner "master" x x'
  | replica {items : List Json} {i : Nat} {x x' : Json} (hx : items[i]? = some x)
      (h : Endpoint.Restyled x x') : Inner "slave" (.array items) (.array (items.set i x'))
  | rule {items : List Json} {i : Nat} {x x' : Json} (hx : items[i]? = some x)
      (h : ShardRule.Restyled x x') : Inner "shard" (.array items) (.array (items.set i x'))

/-- The fields whose values hold records. -/
theorem Inner.name_mem {name : String} {x x' : Json} (h : Inner name x x') :
    name ∈ ["master", "slave", "shard"] := by
  cases h <;> simp

/-- Another way to write the document of settings, in one place. -/
def Restyled : Json → Json → Prop :=
  Json.Restyled fieldNames (IsDefaultOf ofJson? {}) Inner

theorem Inner.ofJson?_master {x x' : Json} (h : Inner "master" x x') {e : Endpoint}
    (hx : Endpoint.ofJson? x = some e) : Endpoint.ofJson? x' = some e := by
  generalize hn : "master" = name at h
  cases h with
  | master h => exact Endpoint.ofJson?_restyled h hx
  | replica => simp at hn
  | rule => simp at hn

theorem Inner.isListOf_replicas {x x' : Json} (h : Inner "slave" x x') {es : List Endpoint}
    (hx : x.IsListOf (fun x e => Endpoint.ofJson? x = some e) es) :
    x'.IsListOf (fun x e => Endpoint.ofJson? x = some e) es := by
  generalize hn : "slave" = name at h
  cases h with
  | master => simp at hn
  | replica hi h => exact hx.set hi fun _ => Endpoint.ofJson?_restyled h
  | rule => simp at hn

theorem Inner.isListOf_rules {x x' : Json} (h : Inner "shard" x x') {rs : List ShardRule}
    (hx : x.IsListOf (fun x r => ShardRule.ofJson? x = some r) rs) :
    x'.IsListOf (fun x r => ShardRule.ofJson? x = some r) rs := by
  generalize hn : "shard" = name at h
  cases h with
  | master => simp at hn
  | replica => simp at hn
  | rule hi h => exact hx.set hi fun _ => ShardRule.ofJson?_restyled h

theorem ofJson?_restyled {j j' : Json} {s : Settings} (h : Restyled j j')
    (hj : ofJson? j = some s) : ofJson? j' = some s := by
  have hplain {name x x'} (hn : name ∉ ["master", "slave", "shard"]) : ¬ Inner name x x' :=
    fun hi => hn hi.name_mem
  refine readsByField.restyled (by decide) (fun hg hdefault hk => ?_) h hj
  exact ⟨
    hg.name.kept text?_eq_some_iff (hk _ (by decide))
      (fun _ hd => (hdefault hd).name.of_single) fun _ _ _ hi => absurd hi (hplain (by decide)),
    hg.maxOpen.kept uint32?_eq_some_iff (hk _ (by decide))
      (fun _ hd => (hdefault hd).maxOpen.of_single) fun _ _ _ hi => absurd hi (hplain (by decide)),
    hg.maxIdle.kept uint32?_eq_some_iff (hk _ (by decide))
      (fun _ hd => (hdefault hd).maxIdle.of_single) fun _ _ _ hi => absurd hi (hplain (by decide)),
    hg.maxLifetime.kept uint64?_eq_some_iff (hk _ (by decide))
      (fun _ hd => (hdefault hd).maxLifetime.of_single)
      fun _ _ _ hi => absurd hi (hplain (by decide)),
    hg.master.kept (fun _ _ => Iff.rfl) (hk _ (by decide))
      (fun _ hd => (hdefault hd).master.of_single) fun _ _ _ hi => hi.ofJson?_master,
    hg.replicas.kept list?_eq_some_iff (hk _ (by decide))
      (fun _ hd => (hdefault hd).replicas.of_single) fun _ _ _ hi => hi.isListOf_replicas,
    hg.rules.kept list?_eq_some_iff (hk _ (by decide))
      (fun _ hd => (hdefault hd).rules.of_single) fun _ _ _ hi => hi.isListOf_rules,
    hg.checkInterval.kept uint64?_eq_some_iff (hk _ (by decide))
      (fun _ hd => (hdefault hd).checkInterval.of_single)
      fun _ _ _ hi => absurd hi (hplain (by decide))⟩

theorem ofJson?_restyled_of_reflTransGen {j j' : Json} {s : Settings}
    (h : Relation.ReflTransGen Restyled j j') (hj : ofJson? j = some s) :
    ofJson? j' = some s := by
  induction h with
  | refl => exact hj
  | tail _ hstep ih => exact ofJson?_restyled hstep ih

theorem decode?_of_parse? {text : String} {j : Json} (h : parse? text = some j) :
    decode? text = ofJson? j := by
  rw [decode?, h]
  rfl

/-- **Partial settings are read field by field**, the endpoints and rules in them likewise. So the
same settings are read from a text and from another whose document is written another way: the
members of objects in another order, with more or fewer unknown members, without members that
equal their defaults, or records as the arrays of their fields. -/
theorem decode?_partial {text : String} {j : Json} (h : parse? text = some j) :
    decode? text = ofJson? j ∧
      ReadsByField ofJson? fieldNames HasTypes GivenBy ∧
      ReadsByField Endpoint.ofJson? Endpoint.fieldNames Endpoint.HasTypes Endpoint.GivenBy ∧
      ReadsByField ShardRule.ofJson? ShardRule.fieldNames ShardRule.HasTypes ShardRule.GivenBy ∧
      ∀ {text' : String} {j' : Json}, parse? text' = some j' →
        Relation.ReflTransGen Restyled j j' →
          ∀ s, decode? text = some s → decode? text' = some s := by
  refine ⟨decode?_of_parse? h, readsByField, Endpoint.readsByField, ShardRule.readsByField,
    fun h' hsteps s hs => ?_⟩
  rw [decode?_of_parse? h] at hs
  rw [decode?_of_parse? h']
  exact ofJson?_restyled_of_reflTransGen hsteps hs

/-- Without a member that is not known and one that equals its default, and then as arrays. -/
theorem decode?_partial_restyled :
    let text := "\x7b\"zone\":null,\"max_idle_conns\":2,\"master\":\x7b\"addr\":\"m:1\"\x7d\x7d"
    let text' := "[\"\",0,2,0,[\"m:1\"]]"
    let s : Settings := { master := { addr := "m:1" } }
    (∀ s', decode? text = some s' ↔ s' = s) ∧ decode? text' = some s := by
  intro text text' s
  let endpoint := object [(some "addr", .ofText "m:1")]
  let fields := [(some "max_idle_conns", number "2"), (some "master", endpoint)]
  have hparse : parse? text = some (.object ((some "zone", .null) :: fields)) := by
    unfold text fields endpoint
    cbv
  have hparse' : parse? text' = some (.array [.ofText "", .number "0", .number "2", .number "0",
      .array [.ofText "m:1"]]) := by
    unfold text'
    cbv
  have hendpoint : Endpoint.Restyled endpoint (.array [.ofText "m:1"]) := by
    refine .list (by decide) ?_
    simp only [Endpoint.fieldNames, List.forall_mem_cons]
    exact ⟨.same _, .same _, .same _, .same _, .same _, nofun⟩
  have hzone : Restyled (.object ((some "zone", .null) :: fields)) (.object fields) :=
    .remove [] fields .null (by decide)
  have hidle : Restyled (.object fields) (.object [(some "master", endpoint)]) :=
    .drop [] [(some "master", endpoint)] (by rfl)
  have hlist : Restyled (.object [(some "master", endpoint)])
      (.array [.ofText "", .number "0", .number "2", .number "0", .array [.ofText "m:1"]]) := by
    refine .list (by decide) ?_
    simp only [fieldNames, List.forall_mem_cons]
    exact ⟨.written rfl, .written rfl, .written rfl, .written rfl, .inner (.master hendpoint),
      .same _, .same _, .same _, nofun⟩
  obtain ⟨hread, -, -, -, hrestyled⟩ := decode?_partial hparse
  have hs : decode? text = some s := hread.trans (by rfl)
  have hsteps := ((Relation.ReflTransGen.single hzone).tail hidle).tail hlist
  refine ⟨fun s' => ?_, hrestyled hparse' hsteps s hs⟩
  rw [hs, Option.some.injEq, eq_comm]

/-- A name of half a surrogate pair is not known and yet not passed over, a string with such a half
is not a text, and a zero with a minus sign is not an integer. -/
theorem decode?_half_pair :
    (∃ j, parse? "\x7b\"\\ud800\":1\x7d" = some j ∧ j = .object [(none, .number "1")] ∧
      (∀ name ∈ fieldNames, j.given fieldNames name = none) ∧
        decode? "\x7b\"\\ud800\":1\x7d" = none) ∧
    (parse? "\x7b\"name\":\"\\ud800\"\x7d" = some (.object [(some "name", .string none)]) ∧
      decode? "\x7b\"name\":\"\\ud800\"\x7d" = none) ∧
    parse? "\x7b\"max_conn_num\":-0\x7d" = some (.object [(some "max_conn_num", .number "-0")]) ∧
      decode? "\x7b\"max_conn_num\":-0\x7d" = none := by
  refine ⟨⟨_, ?_, rfl, ?_, ?_⟩, ⟨?_, ?_⟩, ?_, ?_⟩
  case refine_1 | refine_4 | refine_6 => cbv
  case refine_2 => simp [given, valuesOf]
  all_goals decide +kernel

end Settings

end ReplicaRouter
