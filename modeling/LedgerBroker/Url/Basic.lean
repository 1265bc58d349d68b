import LedgerBroker.Url.Address
import LedgerBroker.Url.PercentEncoding

set_option autoImplicit false

namespace LedgerBroker.Url

inductive Host
  | empty
  | name (text : List Char)
  | ipv4 (address : Nat)
  | ipv6 (groups : List Nat)
  deriving DecidableEq, Repr

def Host.text : Host → List Char
  | empty => []
  | name text => text
  | ipv4 address => Ipv4.write address
  | ipv6 groups => '[' :: Ipv6.write groups ++ [']']

structure UserInfo where
  user : List Char
  password : Option (List Char)
  deriving DecidableEq, Repr

structure Authority where
  userInfo : Option UserInfo
  host : Host
  port : Option Nat
  deriving DecidableEq, Repr

inductive Path
  | opaqueText (text : List Char)
  | segments (parts : List (List Char))
  deriving DecidableEq, Repr

end Url

open Url in
structure Url where
  scheme : List Char
  authority : Option Authority
  path : Path
  query : Option (List Char)
  fragment : Option (List Char)
  deriving DecidableEq, Repr

namespace Url

def isFileScheme (scheme : List Char) : Bool := scheme = "file".toList

def defaultPort? (scheme : List Char) : Option Nat :=
  [("http", 80), ("https", 443), ("ws", 80), ("wss", 443), ("ftp", 21)].findSome? fun (s, port) =>
    if scheme = s.toList then some port else none

def isSpecialScheme (scheme : List Char) : Bool :=
  isFileScheme scheme || (defaultPort? scheme).isSome

def UserInfo.text (u : UserInfo) : List Char :=
  u.user ++ (match u.password with
    | none => []
    | some p => ':' :: p) ++ ['@']

def Authority.text (a : Authority) : List Char :=
  (match a.userInfo with
    | none => []
    | some u => u.text) ++ a.host.text ++
  match a.port with
    | none => []
    | some port => ':' :: (Numeral.decimal port).toList

def Path.text : Path → List Char
  | .opaqueText text => text
  | .segments parts => parts.flatMap ('/' :: ·)

def pathGuard (u : Url) : List Char :=
  match u.authority, u.path with
  | none, .segments ([] :: _ :: _) => ['/', '.']
  | _, _ => []

def optionalPart (mark : Char) : Option (List Char) → List Char
  | none => []
  | some part => mark :: part

def chars (u : Url) : List Char :=
  u.scheme ++ [':'] ++
  (match u.authority with
    | none => []
    | some a => '/' :: '/' :: a.text) ++
  u.pathGuard ++ u.path.text ++ optionalPart '?' u.query ++ optionalPart '#' u.fragment

def toString (u : Url) : String := String.ofList u.chars

/-- No request is made for a URL that takes more bytes. -/
def isShort (u : Url) : Bool := (Bytes.ofString u.toString).length ≤ 65534

def withoutFragment (u : Url) : Url := { u with fragment := none }

def withoutUserInfo (u : Url) : Url :=
  { u with authority := u.authority.map fun a => { a with userInfo := none } }

def dropTrailingEmpty (parts : List (List Char)) : List (List Char) :=
  if parts.length ≠ 1 ∧ parts.getLast? = some [] then parts.dropLast else parts

def isLineBreakOrTab (c : Char) : Bool := c = '\t' || c = '\n' || c = '\r'

/-- Puts a segment at the end of a path, in place of an only and empty one. Breaks and tabs are
left out of a segment; one that is then a single or a double dot ends the path it is put to, or
that path without its last segment. -/
def appendSegment (isSpecial : Bool) (parts : List (List Char)) (segment : List Char) :
    List (List Char) :=
  if segment = ['.'] ∨ segment = ['.', '.'] then parts
  else
    let part := PercentEncoding.encode (PercentEncoding.isEscapedInSegment isSpecial)
      (segment.filter (!isLineBreakOrTab ·))
    let parts := if parts = [[]] then [] else parts
    if part = ['.'] then parts ++ [[]]
    else if part = ['.', '.'] then parts.dropLast ++ [[]]
    else parts ++ [part]

def descend? (u : Url) (segments : List String) : Option Url :=
  match u.path with
  | .opaqueText _ => none
  | .segments parts =>
    let isSpecial := isSpecialScheme u.scheme
    some { u with path := .segments (segments.foldl
      (fun ps s => appendSegment isSpecial ps s.toList) (dropTrailingEmpty parts)) }

def withField (u : Url) (name value : String) : Url :=
  let field := name.toList ++ '=' :: value.toList
  { u with query := some (match u.query with
      | none | some [] => field
      | some query => query ++ '&' :: field) }

end Url

end LedgerBroker
