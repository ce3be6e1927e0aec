import ReplicaRouter.Shard.Key

/-! # Sharding by remainder -/

namespace ReplicaRouter

/-- The tables are numbered by the remainder of the key by `modulus`. -/
structure Modulo where
  modulus : UInt64
deriving Repr, DecidableEq

/-- The table of a list of keys: the remainder read as a signed word, which differs from the
remainder only for a modulus above `2 ^ 63`. -/
def Modulo.find (m : Modulo) (keys : List Key) : Except LookupError Int :=
  if m.modulus = 0 then .error .noPartitions
  else (Key.residueOfList keys).map fun r => (r % m.modulus).toInt64.toInt

end ReplicaRouter
