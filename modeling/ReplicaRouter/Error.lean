import ReplicaRouter.Decimal
import ReplicaRouter.Text.Quoted

/-! # Errors

What can go wrong, as causes. `message` gives each its wording. The reader of settings says in words
of its own why a text is none of them; these are not modelled, and a message takes them as `reader`.

* `LookupError`: a sharding strategy finds no index for its keys.
* `DriverError`: a server, or the driver in front of it, refuses a call.
* `RouterError`: a node cannot be built or cannot answer.
* `Fault`: any of them, where a call can fail in more than one way.
-/

namespace ReplicaRouter

/-- A key whose text no strategy of its kind can read: the caller or the settings are wrong, and
routing it anywhere would misplace data. -/
inductive MalformedKey
  | notInteger (text : String) (why : Decimal.Fault)
  | notDate (text : String)
deriving Repr, DecidableEq

def MalformedKey.message : MalformedKey → String
  | .notInteger text why => "invalid num format " ++ Quoted.quote text ++ ": " ++ why.message
  | .notDate text => "invalid date format " ++ Quoted.quote text

/-- Why a strategy gives no index. -/
inductive LookupError
  /-- No key was given, or one of a kind that the strategy cannot use. -/
  | keyMissing
  /-- No range holds the key. -/
  | outOfRange
  /-- The strategy has nothing to route into. -/
  | noPartitions
  | malformed (key : MalformedKey)
deriving Repr, DecidableEq

def LookupError.message : LookupError → String
  | .keyMissing => "shard key does not exist or has an unsupported type"
  | .outOfRange => "shard key is out of range"
  | .noPartitions => "shard has no configured partitions"
  | .malformed key => key.message

/-- Why a server, or the driver in front of it, refuses a call. -/
inductive DriverError
  /-- The server at this address does not answer. -/
  | refused (server : String)
  | deadlineExceeded
  /-- The data source name holds no address. -/
  | noAddress (dsn : String)
deriving Repr, DecidableEq

def DriverError.message : DriverError → String
  | .refused server => "dial tcp " ++ server ++ ": connection refused"
  | .deadlineExceeded => "context deadline exceeded: transaction aborted"
  | .noAddress dsn => "invalid DSN " ++ Quoted.quote dsn ++ ": missing tcp(addr)"

/-- What is wrong with a sharding rule. -/
inductive RuleFault
  /-- The modulus is not positive. -/
  | modulus
  /-- The ranges are none, empty or past the largest key. -/
  | ranges
deriving Repr, DecidableEq

def RuleFault.message : RuleFault → String
  | .modulus => "mod_num must be > 0"
  | .ranges =>
    "locations and table_row_limit must be > 0 and span a representable key space"

/-- What is wrong with a node's settings. -/
inductive SettingsFault
  | replicaAddress (index : Nat)
  | replicaWeight (index : Nat)
  | checkInterval
deriving Repr, DecidableEq

def SettingsFault.message : SettingsFault → String
  | .replicaAddress index => "slave[" ++ Decimal.ofNat index ++ "] addr must not be empty"
  | .replicaWeight index => "slave[" ++ Decimal.ofNat index ++ "] weight must be > 0"
  | .checkInterval => "check_interval_ms must be > 0"

/-- Why a node cannot be built or cannot answer. -/
inductive RouterError
  | noMaster
  /-- The node is closed to requests for its master. -/
  | masterClosed
  /-- The node is closed to requests for a replica. -/
  | replicasClosed
  /-- The rotation is empty. -/
  | noReplica
  | invalidRule (db table : String) (fault : RuleFault)
  | invalidSettings (fault : SettingsFault)
  /-- The text is not the JSON of settings. -/
  | undecodable
  | masterUnreachable (addr : String) (cause : DriverError)
  | replicaUnreachable (index : Nat) (addr : String) (cause : DriverError)
  /-- The transaction is finished or past its deadline. -/
  | transactionClosed
  | driver (cause : DriverError)
deriving Repr, DecidableEq

/-- The wording, with the `reader`'s own words where a text was not understood. -/
def RouterError.message (e : RouterError) (reader : String := "") : String :=
  match e with
  | .noMaster => "no master database configured"
  | .masterClosed => "no master connection available"
  | .replicasClosed => "no slave database available"
  | .noReplica => "no database available for dispatch"
  | .invalidRule db table fault =>
    "invalid shard config for " ++ db ++ "." ++ table ++ ": " ++ fault.message
  | .invalidSettings fault => "config error: " ++ fault.message
  | .undecodable => "serde json error: " ++ reader
  | .masterUnreachable addr cause => "master " ++ addr ++ " unreachable: " ++ cause.message
  | .replicaUnreachable index addr cause =>
    "slave[" ++ Decimal.ofNat index ++ "] " ++ addr ++ " unreachable: " ++ cause.message
  | .transactionClosed => "transaction has already been committed or rolled back"
  | .driver cause => "driver: " ++ cause.message

/-- Why a call fails. -/
inductive Fault
  | router (e : RouterError)
  | driver (e : DriverError)
  | lookup (e : LookupError)
deriving Repr, DecidableEq

def Fault.message (why : Fault) (reader : String := "") : String :=
  match why with
  | .router e => e.message reader
  | .driver e => e.message
  | .lookup e => e.message

end ReplicaRouter
