import ReplicaRouter.Settings.Basic
import ReplicaRouter.Text.FormEncoded

/-! # Data source names

* `Endpoint.dsn` writes the name under which a server is opened:
  `user:password@tcp(addr)/` and the options for the character set, the time zone and the reading of
  times. Only the time zone is encoded.
* `Dsn.address?` cuts the address out of any text: it starts after the first `tcp(` and ends before
  the next closing parenthesis.
-/

namespace ReplicaRouter

/-- The data source name of an endpoint. -/
def Endpoint.dsn (e : Endpoint) : String :=
  e.user ++ ":" ++ e.password ++ "@tcp(" ++ e.addr ++ ")/?charset=utf8&loc="
    ++ String.ofList (FormEncoded.encode e.timezone) ++ "&parseTime=true"

namespace Dsn

/-- What follows the first `tcp(`. -/
def afterOpening? : List Char → Option (List Char)
  | [] => none
  | 't' :: 'c' :: 'p' :: '(' :: rest => some rest
  | _ :: rest => afterOpening? rest

/-- What stands before the first closing parenthesis. -/
def untilClosing? : List Char → Option (List Char)
  | [] => none
  | ')' :: _ => some []
  | c :: rest => (untilClosing? rest).map (c :: ·)

/-- The address in a data source name. -/
def address? (dsn : String) : Option String := do
  return String.ofList (← untilClosing? (← afterOpening? dsn.toList))

end Dsn

end ReplicaRouter
