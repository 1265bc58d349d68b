set_option autoImplicit false

namespace LedgerBroker.Api.MediaType

def isToken (c : Char) : Bool :=
  c.isAlphanum || ['!', '#', '$', '%', '&', '\'', '*', '+', '-', '.', '^', '_', '\x60', '|', '~'].contains c

def isQuotable (c : Char) : Bool := 0x20 ≤ c.toNat && c.toNat ≠ 0x7F

inductive Position
  | name (begun : Bool)
  | value (begun : Bool)
  | quoted (begun : Bool)
  | afterQuoted

def areParameters : Position → List Char → Bool
  | .name begun, [] => !begun
  | .value _, [] | .afterQuoted, [] => true
  | .quoted _, [] => false
  | .name begun, c :: rest =>
    if c = ' ' ∧ !begun then areParameters (.name false) rest
    else if c = '=' ∧ begun then areParameters (.value false) rest
    else isToken c && areParameters (.name true) rest
  | .value begun, c :: rest =>
    if c = '"' ∧ !begun then areParameters (.quoted false) rest
    else if c = ';' ∧ begun then areParameters (.name false) rest
    else isToken c && areParameters (.value true) rest
  | .quoted begun, c :: rest =>
    if c = '"' ∧ begun then areParameters .afterQuoted rest
    else isQuotable c && areParameters (.quoted true) rest
  | .afterQuoted, c :: rest =>
    if c = ';' then areParameters (.name false) rest
    else c = ' ' && areParameters .afterQuoted rest

def splitSuffix (subtype : List Char) : List Char × Option (List Char) :=
  let suffix := (subtype.reverse.takeWhile (· ≠ '+')).reverse
  let front := subtype.take (subtype.length - suffix.length - 1)
  if suffix.length = subtype.length ∨ front = [] then (subtype, none) else (front, some suffix)

def isJson (mediaType : String) : Bool :=
  let cs := mediaType.toList.map Char.toLower
  let type := cs.takeWhile (· ≠ '/')
  let subtype := ((cs.dropWhile (· ≠ '/')).drop 1).takeWhile (· ≠ ';')
  let parameters := ((cs.dropWhile (· ≠ '/')).drop 1).dropWhile (· ≠ ';')
  let (front, suffix) := splitSuffix subtype
  type = "application".toList && subtype.all isToken &&
    (front = "json".toList || suffix = some "json".toList) &&
    areParameters (.name false) (parameters.drop 1)

end LedgerBroker.Api.MediaType
