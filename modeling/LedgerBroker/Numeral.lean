import LedgerBroker.Bytes

set_option autoImplicit false

namespace LedgerBroker.Numeral

def bound16 : Nat := 0x10000

def bound32 : Nat := 0x100000000

def bound64 : Nat := 0x10000000000000000

def power (base exponent : Nat) : Nat := Nat.pow base exponent

def digits (n : Nat) : List Nat :=
  if n < 10 then [n] else digits (n / 10) ++ [n % 10]
termination_by n
decreasing_by omega

def digitChar (d : Nat) : Char := Char.ofNat (0x30 + d)

def digitByte (d : Nat) : UInt8 := (0x30 + d).toUInt8

def digitValue? (c : Char) : Option Nat :=
  if c.isDigit then some (c.toNat - 0x30) else none

def decimal (n : Nat) : String := String.ofList ((digits n).map digitChar)

def decimalBytes (n : Nat) : Bytes := (digits n).map digitByte

def padded (width n : Nat) : List Char :=
  let ds := (digits n).map digitChar
  List.replicate (width - ds.length) '0' ++ ds

inductive Fault
  | empty
  | invalidDigit
  | tooLarge
  deriving DecidableEq, Repr

def Fault.message : Fault → String
  | .empty => "cannot parse integer from empty string"
  | .invalidDigit => "invalid digit found in string"
  | .tooLarge => "number too large to fit in target type"

/-- Reads digits from the left; of two faults the one further left is reported. -/
def accumulate (bound : Nat) : Nat → List Char → Except Fault Nat
  | n, [] => .ok n
  | n, c :: rest =>
    match digitValue? c with
    | none => .error .invalidDigit
    | some d =>
      if n * 10 + d < bound then accumulate bound (n * 10 + d) rest else .error .tooLarge

def read (bound : Nat) (s : String) : Except Fault Nat :=
  match s.toList with
  | [] => .error .empty
  | ['+'] => .error .invalidDigit
  | '+' :: rest => accumulate bound 0 rest
  | cs => accumulate bound 0 cs

end LedgerBroker.Numeral
