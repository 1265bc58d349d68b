import LedgerBroker.Url.Parser

set_option autoImplicit false

namespace LedgerBroker.Redis

inductive Place
  | host (name : String) (port : Nat)
  | socket (path : List Bytes)
  deriving DecidableEq, Repr

structure Address where
  place : Place
  database : Int
  deriving DecidableEq, Repr

namespace Address

def defaultPort : Nat := 6379

def database? (cs : List Char) : Option Int :=
  match cs with
  | '-' :: '+' :: _ => none
  | '-' :: rest => (Numeral.read 0x8000000000000001 (String.ofList rest)).toOption.map fun n => -(n : Int)
  | _ => (Numeral.read 0x8000000000000000 (String.ofList cs)).toOption.map fun n => (n : Int)

def trimSlashes (cs : List Char) : List Char :=
  ((cs.dropWhile (· = '/')).reverse.dropWhile (· = '/')).reverse

def decoded (cs : List Char) : Bytes :=
  PercentEncoding.decode (Bytes.ofString (String.ofList cs))

def hasReadableLogin (a : Url.Authority) : Bool :=
  a.userInfo.all fun u =>
    (Bytes.text? (decoded u.user)).isSome && u.password.all fun p => (Bytes.text? (decoded p)).isSome

def ofHostUrl? (u : Url) : Option Address := do
  let a ← u.authority
  if a.host = .empty ∨ !hasReadableLogin a then none
  let path := trimSlashes u.path.text
  let database ← if path = [] then some 0 else database? path
  return ⟨.host (String.ofList a.host.text) (a.port.getD defaultPort), database⟩

def field? (name : String) (query : List Char) : Option (List Char) :=
  ((Url.splitAt (· = '&') query).filter fun f => f.takeWhile (· ≠ '=') = name.toList).getLast?.map
    fun f => (f.dropWhile (· ≠ '=')).drop 1

def ofSocketUrl? (u : Url) : Option Address := do
  if u.authority.any fun a => a.host ≠ .empty ∧ a.host ≠ .name "localhost".toList then none
  let .segments parts := u.path | none
  let database ← match u.query.bind (field? "db") with
    | none => some 0
    | some text => database? text
  return ⟨.socket (parts.map decoded), database⟩

def ofUrl? (text : String) (toAscii : Url.ToAscii := Url.Domain.toAscii?) : Option Address := do
  let u ← (Url.ofString text toAscii).toOption
  let scheme := String.ofList u.scheme
  if scheme = "redis" then ofHostUrl? u
  else if scheme = "unix" ∨ scheme = "redis+unix" then ofSocketUrl? u
  else none

end Address

end LedgerBroker.Redis
