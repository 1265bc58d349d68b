import LedgerBroker.Json.Basic

/-!
A reader takes the bytes still to be read and gives its value with the bytes after it, so of several
faults the first in reading order is reported.
-/

set_option autoImplicit false

namespace LedgerBroker.Json

inductive Fault
  | malformed
  | mismatch
  deriving DecidableEq, Repr

abbrev Reader (α : Type) := StateT Bytes (Except Fault) α

namespace Reader

def malformed {α : Type} : Reader α := throw .malformed

def mismatch {α : Type} : Reader α := throw .mismatch

def isBlank (b : UInt8) : Bool := b = 0x20 || b = 0x09 || b = 0x0A || b = 0x0D

def peek : Reader (Option UInt8) := fun input =>
  let rest := input.dropWhile isBlank
  .ok (rest.head?, rest)

def skip : Reader Unit := fun input => .ok ((), input.drop 1)

def expect (b : UInt8) : Reader Unit := do
  if (← peek) = some b then skip else malformed

def literal (word : String) : Reader Unit := fun input =>
  let bytes := Bytes.ofString word
  if bytes.isPrefixOf input then .ok ((), input.drop bytes.length) else .error .malformed

inductive Piece
  | byte (b : UInt8)
  | unit (u : Nat)

def simpleEscape? (b : UInt8) : Option UInt8 :=
  if b = 0x22 ∨ b = 0x5C ∨ b = 0x2F then some b
  else if b = 0x62 then some 0x08
  else if b = 0x66 then some 0x0C
  else if b = 0x6E then some 0x0A
  else if b = 0x72 then some 0x0D
  else if b = 0x74 then some 0x09
  else none

def hexUnit? (a b c d : UInt8) : Option Nat := do
  let a ← Bytes.hexValue? a
  let b ← Bytes.hexValue? b
  let c ← Bytes.hexValue? c
  let d ← Bytes.hexValue? d
  return ((a * 16 + b) * 16 + c) * 16 + d

def pieces : Bytes → Except Fault (List Piece × Bytes)
  | [] => .error .malformed
  | 0x22 :: rest => .ok ([], rest)
  | 0x5C :: 0x75 :: a :: b :: c :: d :: rest =>
    match hexUnit? a b c d with
    | none => .error .malformed
    | some u => (pieces rest).map fun (ps, tail) => (.unit u :: ps, tail)
  | 0x5C :: e :: rest =>
    match simpleEscape? e with
    | none => .error .malformed
    | some b => (pieces rest).map fun (ps, tail) => (.byte b :: ps, tail)
  | b :: rest =>
    if b < 0x20 ∨ b = 0x5C then .error .malformed
    else (pieces rest).map fun (ps, tail) => (.byte b :: ps, tail)

def join : List Piece → Option Bytes
  | [] => some []
  | .byte b :: rest => (join rest).map (b :: ·)
  | .unit u :: rest =>
    if 0xD800 ≤ u ∧ u < 0xDC00 then
      match rest with
      | .unit v :: rest' =>
        if 0xDC00 ≤ v ∧ v < 0xE000 then
          let c := Char.ofNat (0x10000 + (u - 0xD800) * 0x400 + (v - 0xDC00))
          (join rest').map (String.utf8EncodeChar c ++ ·)
        else none
      | _ => none
    else if 0xDC00 ≤ u ∧ u < 0xE000 then none
    else (join rest).map (String.utf8EncodeChar (Char.ofNat u) ++ ·)

def stringBody : Reader String := fun input => do
  let (ps, rest) ← pieces input
  match (join ps).bind Bytes.text? with
  | none => .error .malformed
  | some s => .ok (s, rest)

structure Number where
  negative : Bool
  integral : Bool
  digits : Nat
  exponent : Int

def digitRun : Bytes → List Nat × Bytes
  | [] => ([], [])
  | b :: rest =>
    if Bytes.isDigit b then
      let (ds, tail) := digitRun rest
      ((b - 0x30).toNat :: ds, tail)
    else ([], b :: rest)

def ofDigits (ds : List Nat) : Nat := ds.foldl (fun n d => n * 10 + d) 0

def wholePart (input : Bytes) : Except Fault (List Nat × Bytes) :=
  match digitRun input with
  | ([], _) => .error .malformed
  | (0 :: _ :: _, _) => .error .malformed
  | run => .ok run

def fractionPart : Bytes → Except Fault (Option (List Nat) × Bytes)
  | 0x2E :: rest =>
    match digitRun rest with
    | ([], _) => .error .malformed
    | (ds, tail) => .ok (some ds, tail)
  | input => .ok (none, input)

def signPart : Bytes → Int × Bytes
  | 0x2B :: rest => (1, rest)
  | 0x2D :: rest => (-1, rest)
  | input => (1, input)

def exponentPart (input : Bytes) : Except Fault (Option Int × Bytes) :=
  match input with
  | e :: rest =>
    if e = 0x65 ∨ e = 0x45 then
      let (sign, rest) := signPart rest
      match digitRun rest with
      | ([], _) => .error .malformed
      | (ds, tail) => .ok (some (sign * ofDigits ds), tail)
    else .ok (none, input)
  | [] => .ok (none, input)

def unsignedNumber (negative : Bool) : Reader Number := fun input => do
  let (whole, rest) ← wholePart input
  let (fraction, rest) ← fractionPart rest
  let (exponent, rest) ← exponentPart rest
  .ok ({ negative
         integral := fraction.isNone && exponent.isNone
         digits := ofDigits (whole ++ fraction.getD [])
         exponent := exponent.getD 0 - (fraction.getD []).length }, rest)

def Number.isHuge (n : Number) : Bool :=
  let top := n.exponent + (Numeral.digits n.digits).length
  n.digits ≠ 0 && (top > 400 ||
    (top > 300 &&
      (Numeral.power 2 1024 - Numeral.power 2 970) * Numeral.power 10 (-n.exponent).toNat ≤
        n.digits * Numeral.power 10 n.exponent.toNat))

def number : Reader Number := do
  if (← peek) = some 0x2D then
    skip
    unsignedNumber true
  else unsignedNumber false

inductive Lead
  | null
  | bool (value : Bool)
  | number
  | string
  | array
  | object

def lead : Reader Lead := do
  match ← peek with
  | none => malformed
  | some b =>
    if b = 0x6E then return .null
    else if b = 0x74 then return .bool true
    else if b = 0x66 then return .bool false
    else if b = 0x2D ∨ Bytes.isDigit b then return .number
    else if b = 0x22 then return .string
    else if b = 0x5B then return .array
    else if b = 0x7B then return .object
    else malformed

/-- Refuses a value of the wrong kind. A scalar is read first, for it may not be JSON at all. -/
def refuse {α : Type} : Reader α := do
  match ← lead with
  | .null => literal "null"
  | .bool true => literal "true"
  | .bool false => literal "false"
  | .number => if (← number).isHuge then malformed
  | .string => skip; let _ ← stringBody
  | .array | .object => pure ()
  mismatch

def skipString : Reader Unit := fun input => (pieces input).map fun (_, rest) => ((), rest)

def skipScalar : Lead → Reader Unit
  | .null => literal "null"
  | .bool true => literal "true"
  | .bool false => literal "false"
  | .number => do let _ ← number
  | _ => do skip; skipString

def skipName : Reader Unit := do
  expect 0x22
  skipString
  expect 0x3A

/-- Leaves finished containers: each `true` on the stack is an object, each `false` an array. -/
def leave : List Bool → Reader (List Bool)
  | [] => return []
  | inObject :: outer => do
    match ← peek with
    | none => malformed
    | some b =>
      if b = 0x2C then
        skip
        if inObject then skipName
        return inObject :: outer
      else if b = (if inObject then 0x7D else 0x5D) then
        skip
        leave outer
      else malformed

def enter (stack : List Bool) : Reader (List Bool) := do
  match ← lead with
  | .array =>
    skip
    if (← peek) = some 0x5D then
      skip
      leave stack
    else return false :: stack
  | .object =>
    skip
    if (← peek) = some 0x7D then
      skip
      leave stack
    else
      skipName
      return true :: stack
  | scalar =>
    skipScalar scalar
    leave stack

def skipOpen : Nat → List Bool → Reader Unit
  | 0, _ => malformed
  | turns + 1, stack => do
    match ← enter stack with
    | [] => return ()
    | open_ => skipOpen turns open_

def skipValue : Reader Unit := do skipOpen ((← get).length + 1) []

def run {α : Type} (reader : Reader α) (text : Bytes) : Except Fault α :=
  match StateT.run reader text with
  | .error fault => .error fault
  | .ok (value, rest) => if rest.all isBlank then .ok value else .error .malformed

end Reader

end LedgerBroker.Json
