import LedgerBroker.Bytes
import LedgerBroker.Url.Address
import LedgerBroker.Url.PercentEncoding

set_option autoImplicit false

namespace LedgerBroker.Api

inductive Route
  | health
  | catalog
  | instance_ (id : List Char)
  | lastOperation (id : List Char)
  | binding (id bindingId : List Char)
  deriving DecidableEq, Repr

namespace Route

def ofPath? (path : List Char) : Option Route :=
  match (Url.splitAt (· = '/') path).map String.ofList with
  | ["", "health"] => some health
  | ["", "v2", "catalog"] => some catalog
  | ["", "v2", "service_instances", id] => if id = "" then none else some (.instance_ id.toList)
  | ["", "v2", "service_instances", id, "last_operation"] => some (.lastOperation id.toList)
  | ["", "v2", "service_instances", id, "service_bindings", bindingId] =>
    if bindingId = "" then none else some (.binding id.toList bindingId.toList)
  | _ => none

def methods : Route → List String
  | health | catalog | lastOperation _ => ["GET", "HEAD"]
  | instance_ _ | binding _ _ => ["PUT", "DELETE"]

def id? (segment : List Char) : Option String :=
  Bytes.text? (PercentEncoding.decode (Bytes.ofString (String.ofList segment)))

end Route

end LedgerBroker.Api
