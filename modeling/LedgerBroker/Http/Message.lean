import LedgerBroker.Url.Basic

set_option autoImplicit false

namespace LedgerBroker.Http

abbrev Headers := List (String × Bytes)

def Headers.get? (headers : Headers) (name : String) : Option Bytes :=
  (headers.find? fun (n, _) => n.toLower = name.toLower).map (·.2)

def isVisible (b : UInt8) : Bool := (0x20 ≤ b && b < 0x7F) || b = 0x09

def Headers.text? (headers : Headers) (name : String) : Option String :=
  (headers.get? name).bind fun value =>
    if value.all isVisible then Bytes.text? value else none

inductive Method
  | get
  | post
  | delete
  deriving DecidableEq, Repr

def Method.name : Method → String
  | get => "GET"
  | post => "POST"
  | delete => "DELETE"

structure Content where
  type : String
  text : String
  deriving DecidableEq, Repr

structure Request where
  method : Method
  url : Url
  authorization : Option String
  content : Option Content
  deriving DecidableEq, Repr

structure Reply where
  status : Nat
  headers : Headers
  /-- Nothing if the connection broke before all of it was there. -/
  body : Option Bytes
  deriving DecidableEq, Repr

end LedgerBroker.Http
