import ReplicaRouter.Json.Reader
import ReplicaRouter.Json.Record
import ReplicaRouter.Json.Writer
import ReplicaRouter.Settings.Basic

/-! # Settings as JSON

* `Settings.encode` writes every field, in declared order.
* `Settings.decode?` reads a text in which any field may be missing and then has its default, in the
  settings as in the endpoints and rules inside them.
-/

namespace ReplicaRouter

namespace Endpoint

/-- The names of the fields, in declared order. -/
def fieldNames : List String := ["addr", "user", "password", "timezone", "weight"]

/-- The document of an endpoint. -/
def toJson (e : Endpoint) : Json :=
  .ofFields [
    ("addr", .ofText e.addr),
    ("user", .ofText e.user),
    ("password", .ofText e.password),
    ("timezone", .ofText e.timezone),
    ("weight", .ofNat e.weight.toNat)]

/-- The endpoint of a document. -/
def ofJson? (j : Json) : Option Endpoint := do
  let fields ← j.fields? fieldNames
  let missing : Endpoint := {}
  return {
    addr := ← Json.field? fields "addr" Json.text? missing.addr
    user := ← Json.field? fields "user" Json.text? missing.user
    password := ← Json.field? fields "password" Json.text? missing.password
    timezone := ← Json.field? fields "timezone" Json.text? missing.timezone
    weight := ← Json.field? fields "weight" Json.uint32? missing.weight }

end Endpoint

namespace ShardRule

/-- The names of the fields, in declared order. -/
def fieldNames : List String := ["db", "table", "mod_num", "locations", "type", "table_row_limit"]

/-- The document of a rule. -/
def toJson (r : ShardRule) : Json :=
  .ofFields [
    ("db", .ofText r.db),
    ("table", .ofText r.table),
    ("mod_num", .ofInt r.modulus.toInt),
    ("locations", .ofInt r.ranges.toInt),
    ("type", .ofText r.tag),
    ("table_row_limit", .ofInt r.rangeWidth.toInt)]

/-- The rule of a document. -/
def ofJson? (j : Json) : Option ShardRule := do
  let fields ← j.fields? fieldNames
  let missing : ShardRule := {}
  return {
    db := ← Json.field? fields "db" Json.text? missing.db
    table := ← Json.field? fields "table" Json.text? missing.table
    modulus := ← Json.field? fields "mod_num" Json.int64? missing.modulus
    ranges := ← Json.field? fields "locations" Json.int64? missing.ranges
    tag := ← Json.field? fields "type" Json.text? missing.tag
    rangeWidth := ← Json.field? fields "table_row_limit" Json.int64? missing.rangeWidth }

end ShardRule

namespace Settings

/-- The names of the fields, in declared order. -/
def fieldNames : List String :=
  ["name", "max_conn_num", "max_idle_conns", "max_lifetime", "master", "slave", "shard",
    "check_interval_ms"]

/-- The document of settings. -/
def toJson (s : Settings) : Json :=
  .ofFields [
    ("name", .ofText s.name),
    ("max_conn_num", .ofNat s.maxOpen.toNat),
    ("max_idle_conns", .ofNat s.maxIdle.toNat),
    ("max_lifetime", .ofNat s.maxLifetime.toNat),
    ("master", s.master.toJson),
    ("slave", .array (s.replicas.map Endpoint.toJson)),
    ("shard", .array (s.rules.map ShardRule.toJson)),
    ("check_interval_ms", .ofNat s.checkInterval.toNat)]

/-- The settings of a document. -/
def ofJson? (j : Json) : Option Settings := do
  let fields ← j.fields? fieldNames
  let missing : Settings := {}
  return {
    name := ← Json.field? fields "name" Json.text? missing.name
    maxOpen := ← Json.field? fields "max_conn_num" Json.uint32? missing.maxOpen
    maxIdle := ← Json.field? fields "max_idle_conns" Json.uint32? missing.maxIdle
    maxLifetime := ← Json.field? fields "max_lifetime" Json.uint64? missing.maxLifetime
    master := ← Json.field? fields "master" Endpoint.ofJson? missing.master
    replicas := ← Json.field? fields "slave" (Json.list? Endpoint.ofJson?) missing.replicas
    rules := ← Json.field? fields "shard" (Json.list? ShardRule.ofJson?) missing.rules
    checkInterval :=
      ← Json.field? fields "check_interval_ms" Json.uint64? missing.checkInterval }

def encode (s : Settings) : String := s.toJson.render

def decode? (text : String) : Option Settings := do
  ofJson? (← Json.parse? text)

end Settings

end ReplicaRouter
