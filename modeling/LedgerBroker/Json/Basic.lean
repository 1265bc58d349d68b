import LedgerBroker.Numeral

set_option autoImplicit false

namespace LedgerBroker

inductive Json
  | null
  | bool (value : Bool)
  | nat (value : Nat)
  | str (value : String)
  | arr (items : List Json)
  | obj (fields : List (String × Json))

namespace Json

def hexDigit (n : Nat) : UInt8 := if n < 10 then (0x30 + n).toUInt8 else (0x57 + n).toUInt8

def escape (b : UInt8) : Bytes :=
  if b = 0x22 then [0x5C, 0x22]
  else if b = 0x5C then [0x5C, 0x5C]
  else if b = 0x08 then [0x5C, 0x62]
  else if b = 0x09 then [0x5C, 0x74]
  else if b = 0x0A then [0x5C, 0x6E]
  else if b = 0x0C then [0x5C, 0x66]
  else if b = 0x0D then [0x5C, 0x72]
  else if b < 0x20 then
    [0x5C, 0x75, 0x30, 0x30, hexDigit (b.toNat / 16), hexDigit (b.toNat % 16)]
  else [b]

def quote (s : String) : Bytes := 0x22 :: ((Bytes.ofString s).flatMap escape ++ [0x22])

mutual

def write : Json → Bytes
  | .null => Bytes.ofString "null"
  | .bool true => Bytes.ofString "true"
  | .bool false => Bytes.ofString "false"
  | .nat n => Numeral.decimalBytes n
  | .str s => quote s
  | .arr [] => [0x5B, 0x5D]
  | .arr (item :: rest) => 0x5B :: (write item ++ writeItems rest)
  | .obj [] => [0x7B, 0x7D]
  | .obj ((name, value) :: rest) =>
    0x7B :: (quote name ++ 0x3A :: (write value ++ writeFields rest))

def writeItems : List Json → Bytes
  | [] => [0x5D]
  | item :: rest => 0x2C :: (write item ++ writeItems rest)

def writeFields : List (String × Json) → Bytes
  | [] => [0x7D]
  | (name, value) :: rest =>
    0x2C :: (quote name ++ 0x3A :: (write value ++ writeFields rest))

end

def optionalField (name : String) : Option String → List (String × Json)
  | none => []
  | some value => [(name, .str value)]

def strOrNull : Option String → Json
  | none => .null
  | some value => .str value

end Json

end LedgerBroker
