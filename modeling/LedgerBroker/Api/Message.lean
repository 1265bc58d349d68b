import LedgerBroker.BrokerError
import LedgerBroker.Http.Message
import LedgerBroker.Json.Basic

set_option autoImplicit false

namespace LedgerBroker.Api

structure Request where
  method : String
  path : List Char
  query : List Char
  headers : Http.Headers
  body : Bytes
  deriving DecidableEq, Repr

def splitTarget (target : List Char) : List Char × List Char :=
  let cs := target.takeWhile (· ≠ '#')
  let cs :=
    if cs.head? = some '/' ∨ cs = ['*'] then cs
    else
      match (cs.dropWhile (· ≠ ':')).drop 3 |>.dropWhile fun c => c ≠ '/' ∧ c ≠ '?' with
      | '?' :: rest => '/' :: '?' :: rest
      | [] => ['/']
      | path => path
  (cs.takeWhile (· ≠ '?'), (cs.dropWhile (· ≠ '?')).drop 1)

inductive Body
  | empty
  | json (document : Json)
  | text (text : String)

structure Response where
  status : Nat
  headers : List (String × String)
  body : Body

namespace Response

def ofStatus (status : Nat) : Response := ⟨status, [], .empty⟩

def ofJson (status : Nat) (document : Json) : Response :=
  ⟨status, [("content-type", "application/json")], .json document⟩

def ofText (status : Nat) (text : String) : Response :=
  ⟨status, [("content-type", "text/plain; charset=utf-8")], .text text⟩

def ofError (e : BrokerError) : Response := ofJson e.status e.body

def withHeaders (r : Response) (headers : List (String × String)) : Response :=
  { r with headers := r.headers ++ headers }

def withoutBody (r : Response) : Response := { r with body := .empty }

def varying : List (String × String) := [
  ("vary", "origin, access-control-request-method, access-control-request-headers"),
  ("access-control-allow-origin", "*")]

def forAnyone (r : Response) : Response :=
  r.withHeaders (varying ++ [("access-control-expose-headers", "*")])

def permission : Response :=
  (ofStatus 200).withHeaders (varying ++ [
    ("access-control-allow-methods", "*"),
    ("access-control-allow-headers", "*")])

def allowing (methods : List String) (r : Response) : Response :=
  r.withHeaders [("allow", ",".intercalate methods)]

end Response

end LedgerBroker.Api
