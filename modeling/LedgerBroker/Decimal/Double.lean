import LedgerBroker.Numeral

set_option autoImplicit false

namespace LedgerBroker

/-- A finite number is its mantissa times a power of two. The mantissa is below 2^53, and not below
2^52 unless the exponent is the least one, -1074. -/
inductive Double
  | finite (negative : Bool) (mantissa : Nat) (exponent : Int)
  | infinite (negative : Bool)
  | nan
  deriving DecidableEq, Repr

namespace Double

open Numeral (power)

def isFinite : Double → Bool
  | finite .. => true
  | infinite _ | nan => false

def roundDiv (num den : Nat) : Nat :=
  let q := num / den
  let r := num % den
  if 2 * r < den ∨ (2 * r = den ∧ q % 2 = 0) then q else q + 1

def ofFraction (negative : Bool) (num den : Nat) : Double :=
  if num = 0 then finite negative 0 (-1074)
  else
    let guess : Int := (Nat.log2 num : Int) - Nat.log2 den - 52
    let fits (e : Int) : Bool := num * power 2 (-e).toNat < den * power 2 (e.toNat + 53)
    let e : Int := max (-1074) (if fits (guess - 1) then guess - 1
      else if fits guess then guess else guess + 1)
    let m := roundDiv (num * power 2 (-e).toNat) (den * power 2 e.toNat)
    let (m, e) := if m = 0x20000000000000 then (0x10000000000000, e + 1) else (m, e)
    if 971 < e then infinite negative else finite negative m e

def ofDecimal (negative : Bool) (digits : Nat) (exponent : Int) : Double :=
  let top := exponent + (Numeral.digits digits).length
  if digits = 0 ∨ top < -400 then finite negative 0 (-1074)
  else if 400 < top then infinite negative
  else ofFraction negative (digits * power 10 exponent.toNat) (power 10 (-exponent).toNat)

/-- The decimal of at most `count` digits nearest to `num / den`, as digits and a power of ten,
where `low / den` and `high / den` bound what reads back as the same number. -/
def shortestWithin (num den low high : Nat) (closed : Bool) (magnitude : Int) :
    Nat → Nat → Nat × Int
  | 0, _ => (0, 0)
  | tries + 1, count =>
    let p := magnitude - count + 1
    let up := power 10 (-p).toNat
    let unit := den * power 10 p.toNat
    let inside (d : Nat) : Bool :=
      if closed then low * up ≤ d * unit && d * unit ≤ high * up
      else low * up < d * unit && d * unit < high * up
    let below := num * up / unit
    let nearest := roundDiv (num * up) unit
    let other := if nearest = below then below + 1 else below
    if inside nearest then (nearest, p)
    else if inside other then (other, p)
    else shortestWithin num den low high closed magnitude tries (count + 1)

def magnitude (num den : Nat) : Int :=
  let guess : Int := (Numeral.digits num).length - (Numeral.digits den).length
  if den * power 10 guess.toNat ≤ num * power 10 (-guess).toNat then guess else guess - 1

def dropZeros : Nat → Nat → Int → Nat × Int
  | 0, d, p => (d, p)
  | turns + 1, d, p => if d ≠ 0 ∧ d % 10 = 0 then dropZeros turns (d / 10) (p + 1) else (d, p)

def shortest (m : Nat) (e : Int) : Nat × Int :=
  let den := 4 * power 2 (-e).toNat
  let unit := power 2 e.toNat
  let num := 4 * m * unit
  let low := if m = 0x10000000000000 ∧ -1074 < e then num - unit else num - 2 * unit
  let (d, p) := shortestWithin num den low (num + 2 * unit) (m % 2 = 0) (magnitude num den) 17 1
  dropZeros 17 d p

structure Layout where
  leastZeros : Int
  mostDigits : Int

def write (negative : Bool) (m : Nat) (e : Int) (layout : Layout) : List Char :=
  let sign := if negative then ['-'] else []
  if m = 0 then sign ++ ['0', '.', '0']
  else
    let (d, p) := shortest m e
    let ds := (Numeral.digits d).map Numeral.digitChar
    let point : Int := ds.length + p
    sign ++
      if 0 ≤ p ∧ point ≤ layout.mostDigits then ds ++ List.replicate p.toNat '0' ++ ['.', '0']
      else if 0 < point ∧ point ≤ layout.mostDigits then
        ds.take point.toNat ++ '.' :: ds.drop point.toNat
      else if layout.leastZeros < point ∧ point ≤ 0 then
        '0' :: '.' :: (List.replicate (-point).toNat '0' ++ ds)
      else
        let scale := point - 1
        ds.take 1 ++ (if ds.length = 1 then [] else '.' :: ds.drop 1) ++ 'e' ::
          ((if scale < 0 then ['-'] else []) ++ (Numeral.digits scale.natAbs).map Numeral.digitChar)

end Double

end LedgerBroker
