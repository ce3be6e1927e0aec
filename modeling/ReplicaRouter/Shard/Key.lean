import ReplicaRouter.Crc32
import ReplicaRouter.Error
import ReplicaRouter.Text.Utf8

/-! # Shard keys

The values a table is sharded by, and the two ways to read one as a number.

* `Key.residue` reads any key as an unsigned word: integers keep their bits, decimal text its
  value, everything else the CRC-32 of its bytes.
* `Key.number` reads a key as a signed word and refuses text that is no integer.
* `Key.joined` is the text of several numbers written one after another, the key that a list of
  keys stands for.
-/

namespace ReplicaRouter

/-- A value that picks a shard. -/
inductive Key
  | int (v : Int64)
  | uint (v : UInt64)
  | text (s : String)
  | bytes (b : List UInt8)
deriving Repr, DecidableEq

namespace Key

/-- The key as an unsigned word. -/
def residue : Key → UInt64
  | .int v => v.toUInt64
  | .uint v => v
  | .text s => (Decimal.readUnsigned? s.toList).getD (Crc32.checksum (Utf8.encode s)).toUInt64
  | .bytes b => (Crc32.checksum b).toUInt64

/-- The signed word that a text spells. -/
def numberOfText (s : String) : Except LookupError Int64 :=
  (Decimal.readSigned s.toList).mapError fun why => .malformed (.notInteger s why)

/-- The key as a signed word. -/
def number : Key → Except LookupError Int64
  | .int v => .ok v
  | .uint v => .ok v.toInt64
  | .text s => numberOfText s
  | .bytes b => numberOfText (Utf8.decodeLossy b)

/-- The signed decimals of several words, one after another. -/
def joined (vs : List Int64) : String :=
  String.ofList (vs.flatMap fun v => (Decimal.ofInt v.toInt).toList)

/-- The residue of a list of keys: of a single key its own, of several that of their joined
residues, each written as a signed word. -/
def residueOfList : List Key → Except LookupError UInt64
  | [] => .error .keyMissing
  | [k] => .ok k.residue
  | ks => .ok (Key.text (joined (ks.map fun k => k.residue.toInt64))).residue

/-- The number of a list of keys: of a single key its own, of several that of their joined
numbers. The first key that is no number fails the list. -/
def numberOfList : List Key → Except LookupError Int64
  | [] => .error .keyMissing
  | [k] => k.number
  | ks => do numberOfText (joined (← ks.mapM number))

end Key

end ReplicaRouter
