import LedgerBroker.Url.Basic
import LedgerBroker.Url.Domain

set_option autoImplicit false

namespace LedgerBroker.Url

inductive Fault
  | noScheme
  | emptyHost
  | invalidPort
  | invalidIpv4
  | invalidIpv6
  | invalidDomain
  | invalidHostCharacter
  deriving DecidableEq, Repr

def Fault.message : Fault → String
  | noScheme => "relative URL without a base"
  | emptyHost => "empty host"
  | invalidPort => "invalid port number"
  | invalidIpv4 => "invalid IPv4 address"
  | invalidIpv6 => "invalid IPv6 address"
  | invalidDomain => "invalid international domain name"
  | invalidHostCharacter => "invalid domain character"

/-- The form in which a name is looked up. -/
abbrev ToAscii := Bytes → Option (List Char)

namespace Parser

open PercentEncoding

variable (toAscii : ToAscii)

def isSlash (isSpecial : Bool) (c : Char) : Bool := c = '/' || (isSpecial && c = '\\')

def endsAuthority (isSpecial : Bool) (c : Char) : Bool :=
  isSlash isSpecial c || c = '?' || c = '#'

def clean (cs : List Char) : List Char :=
  let isEdge (c : Char) : Bool := c.toNat ≤ 0x20
  ((cs.dropWhile isEdge).reverse.dropWhile isEdge).reverse.filter (!isLineBreakOrTab ·)

def isSchemeChar (c : Char) : Bool := c.isAlphanum || c = '+' || c = '-' || c = '.'

def scheme? (cs : List Char) : Option (List Char × List Char) :=
  match cs.dropWhile isSchemeChar with
  | ':' :: rest =>
    if cs.head?.any Char.isAlpha then some ((cs.takeWhile isSchemeChar).map Char.toLower, rest)
    else none
  | _ => none

def splitUserInfo (cs : List Char) : Option (List Char) × List Char :=
  let after := (cs.reverse.takeWhile (· ≠ '@')).reverse
  if after.length = cs.length then (none, cs)
  else (some (cs.take (cs.length - after.length - 1)), after)

def userInfo (cs : List Char) : Option UserInfo :=
  let user := encode isEscapedInUserInfo (cs.takeWhile (· ≠ ':'))
  let password := encode isEscapedInUserInfo ((cs.dropWhile (· ≠ ':')).drop 1)
  if user = [] ∧ password = [] then none
  else some ⟨user, if password = [] then none else some password⟩

def splitPort (inBrackets : Bool) : List Char → List Char × List Char
  | [] => ([], [])
  | c :: rest =>
    if c = ':' ∧ !inBrackets then ([], c :: rest)
    else
      let (host, port) := splitPort (if c = '[' then true else if c = ']' then false else inBrackets) rest
      (c :: host, port)

def ipv6 (cs : List Char) : Except Fault Host :=
  if cs.getLast? = some ']' then
    match Ipv6.read? (cs.dropLast.drop 1) with
    | none => .error .invalidIpv6
    | some groups => .ok (.ipv6 groups)
  else .error .invalidIpv6

def namedHost (cs : List Char) : Except Fault Host :=
  if cs.head? = some '[' then ipv6 cs
  else
    match toAscii (decode (Bytes.ofString (String.ofList cs))) with
    | none => .error .invalidDomain
    | some [] => .error .emptyHost
    | some name =>
      if Ipv4.endsInNumber name then
        match Ipv4.read? name with
        | none => .error .invalidIpv4
        | some address => .ok (.ipv4 address)
      else .ok (.name name)

def isForbiddenInHost (c : Char) : Bool :=
  c = '\x00' || isLineBreakOrTab c ||
  [' ', '#', '/', ':', '<', '>', '?', '@', '[', '\\', ']', '^', '|'].contains c

def foreignHost (cs : List Char) : Except Fault Host :=
  if cs.head? = some '[' then ipv6 cs
  else if cs.any isForbiddenInHost then .error .invalidHostCharacter
  else if cs = [] then .ok .empty
  else .ok (.name (encode isControl cs))

def port (scheme : List Char) (cs : List Char) : Except Fault (Option Nat) :=
  if cs.all Char.isDigit then
    match cs with
    | [] => .ok none
    | _ =>
      match Numeral.read Numeral.bound16 (String.ofList cs) with
      | .error _ => .error .invalidPort
      | .ok n => .ok (if defaultPort? scheme = some n then none else some n)
  else .error .invalidPort

def authority (scheme : List Char) (cs : List Char) : Except Fault Authority := do
  let isSpecial := isSpecialScheme scheme
  let (info, cs) := splitUserInfo cs
  if info.isSome && cs = [] && info ≠ some [] then throw .emptyHost
  let (hostText, portText) := splitPort false cs
  if hostText = [] ∧ (isSpecial ∨ portText ≠ []) then throw .emptyHost
  let host ← if isSpecial then namedHost toAscii hostText else foreignHost hostText
  let port ← port scheme (portText.drop 1)
  return ⟨info.bind userInfo, host, port⟩

def isSingleDot (part : List Char) : Bool :=
  ["." , "%2e", "%2E"].any (·.toList = part)

def isDoubleDot (part : List Char) : Bool :=
  ["..", "%2e%2e", "%2e%2E", "%2E%2e", "%2E%2E", "%2e.", "%2E.", ".%2e", ".%2E"].any
    (·.toList = part)

def isDriveLetter : List Char → Bool
  | [c, d] => c.isAlpha && (d = ':' || d = '|')
  | _ => false

def addSegment (isFile isLast : Bool) (parts : List (List Char)) (part : List Char) :
    List (List Char) :=
  let part := encode isEscapedInPath part
  let last : List (List Char) := if isLast then [[]] else []
  if isDoubleDot part then
    (if isFile && parts.length = 1 && parts.all isDriveLetter then parts else parts.dropLast) ++ last
  else if isSingleDot part then parts ++ last
  else if isFile && parts = [] && isDriveLetter part then parts ++ [[part.headD 'c', ':']]
  else parts ++ [part]

def addSegments (isFile : Bool) (parts : List (List Char)) : List (List Char) → List (List Char)
  | [] => parts
  | [part] => addSegment isFile true parts part
  | part :: rest => addSegments isFile (addSegment isFile false parts part) rest

def segments (scheme : List Char) (cs : List Char) : List (List Char) :=
  let isFile := isFileScheme scheme
  let parts := addSegments isFile [] (splitAt (isSlash (isSpecialScheme scheme)) cs)
  if isFile then
    match parts.dropWhile (· = []) with
    | [] => [[]]
    | parts => parts
  else parts

def hierarchy (scheme : List Char) (cs : List Char) : Path :=
  match cs with
  | [] => .segments (if isSpecialScheme scheme then [[]] else [])
  | c :: rest =>
    .segments (segments scheme (if isSlash (isSpecialScheme scheme) c then rest else c :: rest))

def cut (cs : List Char) : List Char × Option (List Char) × Option (List Char) :=
  let beforeFragment := cs.takeWhile (· ≠ '#')
  let fragment := match cs.dropWhile (· ≠ '#') with
    | [] => none
    | _ :: rest => some rest
  let query := match beforeFragment.dropWhile (· ≠ '?') with
    | [] => none
    | _ :: rest => some rest
  (beforeFragment.takeWhile (· ≠ '?'), query, fragment)

def fileHost (cs : List Char) : Except Fault (Host × List Char) := do
  let hostText := cs.takeWhile (!isSlash true ·)
  if isDriveLetter hostText then return (.empty, cs)
  let rest := cs.drop hostText.length
  if hostText = [] then return (.empty, rest)
  let host ← namedHost toAscii hostText
  return (if host = .name "localhost".toList then .empty else host, rest)

def file (scheme : List Char) (cs : List Char) : Except Fault (Authority × Path) := do
  match cs with
  | a :: b :: rest =>
    if isSlash true a && isSlash true b then
      let (host, rest) ← fileHost toAscii rest
      let path := hierarchy scheme rest
      let startsWithDrive := match path with
        | .segments (p :: _) => isDriveLetter p
        | _ => false
      return (⟨none, if startsWithDrive then .empty else host, none⟩, path)
    else return (⟨none, .empty, none⟩, hierarchy scheme cs)
  | _ => return (⟨none, .empty, none⟩, hierarchy scheme cs)

def place (scheme : List Char) (cs : List Char) : Except Fault (Option Authority × Path) := do
  let isSpecial := isSpecialScheme scheme
  let afterAuthority (cs : List Char) : Except Fault (Option Authority × Path) := do
    let a ← authority toAscii scheme (cs.takeWhile (!endsAuthority isSpecial ·))
    return (some a, hierarchy scheme (cs.dropWhile (!endsAuthority isSpecial ·)))
  if isFileScheme scheme then
    let (a, path) ← file toAscii scheme cs
    return (some a, path)
  else if isSpecial then afterAuthority (cs.dropWhile (isSlash true))
  else
    match cs with
    | '/' :: '/' :: rest => afterAuthority rest
    | '/' :: rest => return (none, .segments (segments scheme rest))
    | _ => return (none, .opaqueText (encode isControl cs))

def parse (cs : List Char) : Except Fault Url := do
  let some (scheme, rest) := scheme? (clean cs) | throw .noScheme
  let (body, query, fragment) := cut rest
  let (authority, path) ← place toAscii scheme body
  return {
    scheme := scheme
    authority := authority
    path := path
    query := query.map (encode (isEscapedInQuery (isSpecialScheme scheme)))
    fragment := fragment.map (encode isEscapedInFragment) }

end Parser

def ofString (s : String) (toAscii : ToAscii) : Except Fault Url := Parser.parse toAscii s.toList

end LedgerBroker.Url
