import LedgerBroker.Decimal.Double

set_option autoImplicit false

namespace LedgerBroker

inductive Yaml
  | null
  | bool (value : Bool)
  | int (value : Int)
  | float (value : Double)
  | str (value : String)
  | seq (items : List Yaml)
  | map (entries : List (Yaml × Yaml))
  | tagged (tag : String) (value : Yaml)
  deriving Repr

namespace Yaml

mutual

def same : Yaml → Yaml → Bool
  | null, null => true
  | bool a, bool b => a == b
  | int a, int b => a == b
  | float a, float b => a == b
  | str a, str b => a == b
  | seq xs, seq ys => sameItems xs ys
  | map xs, map ys => sameEntries xs ys
  | tagged t x, tagged u y => t == u && same x y
  | _, _ => false

def sameItems : List Yaml → List Yaml → Bool
  | [], [] => true
  | x :: xs, y :: ys => same x y && sameItems xs ys
  | _, _ => false

def sameEntries : List (Yaml × Yaml) → List (Yaml × Yaml) → Bool
  | [], [] => true
  | x :: xs, y :: ys => samePair x y && sameEntries xs ys
  | _, _ => false

def samePair : Yaml × Yaml → Yaml × Yaml → Bool
  | (k, v), (l, w) => same k l && same v w

end

instance : BEq Yaml := ⟨same⟩

/-- The kinds of values that plain scalars stand for. Integers beyond 64 bits are numbers still,
but have no place among the values. -/
inductive Scalar
  | null
  | bool (value : Bool)
  | int (value : Int)
  | wideInt
  | float (value : Double)
  | str (value : String)
  deriving Repr

namespace Scalar

def isNull (s : String) : Bool := s = "null" || s = "Null" || s = "NULL" || s = "~"

def bool? (s : String) : Option Bool :=
  if s = "true" ∨ s = "True" ∨ s = "TRUE" then some true
  else if s = "false" ∨ s = "False" ∨ s = "FALSE" then some false
  else none

def isZeroPadded (cs : List Char) : Bool :=
  match cs with
  | '+' :: '0' :: d :: rest | '-' :: '0' :: d :: rest | '0' :: d :: rest =>
    (d :: rest).all Char.isDigit
  | _ => false

def digitIn? (radix : Nat) (c : Char) : Option Nat :=
  let value :=
    if c.isDigit then c.toNat - 0x30
    else if 'a' ≤ c ∧ c ≤ 'f' then c.toNat - 0x57
    else if 'A' ≤ c ∧ c ≤ 'F' then c.toNat - 0x37
    else 16
  if value < radix then some value else none

def digits? (radix : Nat) (cs : List Char) : Option Nat :=
  if cs = [] then none
  else cs.foldlM (fun n c => (digitIn? radix c).map (n * radix + ·)) 0

def signOf : List Char → Bool × List Char
  | '+' :: rest => (false, rest)
  | '-' :: rest => (true, rest)
  | cs => (false, cs)

def integer? (cs : List Char) : Option Int :=
  let (negative, body) := signOf cs
  let magnitude :=
    match body with
    | '0' :: 'x' :: rest => digits? 16 rest
    | '0' :: 'o' :: rest => digits? 8 rest
    | '0' :: 'b' :: rest => digits? 2 rest
    | _ => if isZeroPadded cs then none else digits? 10 body
  magnitude.map fun n => if negative then -(n : Int) else n

def decimal? (cs : List Char) : Option Double := do
  let (negative, body) := signOf cs
  let whole := body.takeWhile Char.isDigit
  let rest := body.dropWhile Char.isDigit
  let (fraction, rest) := match rest with
    | '.' :: tail => (tail.takeWhile Char.isDigit, tail.dropWhile Char.isDigit)
    | _ => ([], rest)
  let significand ← digits? 10 (whole ++ fraction)
  let exponent : Int ← match rest with
    | [] => some 0
    | e :: tail =>
      if e = 'e' ∨ e = 'E' then
        let (down, power) := signOf tail
        (digits? 10 power).map fun n => if down then -(n : Int) else n
      else none
  let value := Double.ofDecimal negative significand (exponent - fraction.length)
  if value.isFinite then some value else none

def float? (cs : List Char) : Option Double :=
  let s := String.ofList cs
  let unsigned := match cs with
    | '+' :: rest => String.ofList rest
    | _ => s
  if unsigned = ".inf" ∨ unsigned = ".Inf" ∨ unsigned = ".INF" then some (.infinite false)
  else if s = "-.inf" ∨ s = "-.Inf" ∨ s = "-.INF" then some (.infinite true)
  else if s = ".nan" ∨ s = ".NaN" ∨ s = ".NAN" then some .nan
  else decimal? cs

def ofInteger (n : Int) : Scalar :=
  if -0x8000000000000000 ≤ n ∧ n < 0x10000000000000000 then int n else wideInt

def fitsWide (n : Int) : Bool := -(Numeral.power 2 127 : Int) ≤ n && n < (Numeral.power 2 128 : Int)

def ofPlain (s : String) : Scalar :=
  if s = "" ∨ isNull s then null
  else
    match bool? s with
    | some b => bool b
    | none =>
      match (integer? s.toList).filter fitsWide with
      | some n => ofInteger n
      | none =>
        if isZeroPadded s.toList then str s
        else
          match float? s.toList with
          | some x => float x
          | none => str s

end Scalar

def ofFields (entries : List (String × Yaml)) : Yaml := map (entries.map fun (k, v) => (str k, v))

def untagged : Yaml → Yaml
  | tagged _ value => value.untagged
  | value => value

def items? (y : Yaml) : Option (List Yaml) :=
  match y.untagged with
  | seq items => some items
  | _ => none

def text? (y : Yaml) : Option String :=
  match y.untagged with
  | str s => some s
  | _ => none

def get? (y : Yaml) (key : String) : Option Yaml :=
  match y.untagged with
  | map entries => (entries.find? fun (k, _) => match k with | str s => s = key | _ => false).map (·.2)
  | _ => none

end Yaml

end LedgerBroker
