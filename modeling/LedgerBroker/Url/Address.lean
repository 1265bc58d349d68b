import LedgerBroker.Numeral

set_option autoImplicit false

namespace LedgerBroker.Url

def splitAt (separator : Char → Bool) : List Char → List (List Char)
  | [] => [[]]
  | c :: rest =>
    if separator c then [] :: splitAt separator rest
    else
      match splitAt separator rest with
      | [] => [[c]]
      | piece :: pieces => (c :: piece) :: pieces

namespace Ipv4

def digit? (radix : Nat) (c : Char) : Option Nat :=
  let n := c.toNat
  let d :=
    if 0x30 ≤ n ∧ n ≤ 0x39 then n - 0x30
    else if 0x41 ≤ n ∧ n ≤ 0x46 then n - 0x37
    else if 0x61 ≤ n ∧ n ≤ 0x66 then n - 0x57
    else radix
  if d < radix then some d else none

def ofDigits? (radix : Nat) (cs : List Char) : Option Nat := do
  return (← cs.mapM (digit? radix)).foldl (fun n d => n * radix + d) 0

def number? : List Char → Option Nat
  | [] => none
  | '0' :: 'x' :: rest | '0' :: 'X' :: rest => ofDigits? 16 rest
  | '0' :: c :: rest => ofDigits? 8 (c :: rest)
  | cs => ofDigits? 10 cs

def parts (name : List Char) : List (List Char) :=
  match (splitAt (· = '.') name).reverse with
  | [] :: p :: rest => (p :: rest).reverse
  | ps => ps.reverse

def endsInNumber (name : List Char) : Bool :=
  match (parts name).reverse with
  | [] => false
  | last :: _ => last ≠ [] && (last.all Char.isDigit || (number? last).isSome)

def combine? : List Nat → Option Nat
  | [] => none
  | last :: front =>
    if 4 ≤ front.length ∨ front.any (255 < ·) ∨ Numeral.power 256 (4 - front.length) ≤ last then none
    else some (last + front.reverse.foldl (fun n x => n * 256 + x) 0 *
      Numeral.power 256 (4 - front.length))

def read? (name : List Char) : Option Nat := do combine? (← (parts name).reverse.mapM number?)

def write (address : Nat) : List Char :=
  let part (n : Nat) := (Numeral.decimal (address / n % 256)).toList
  part 0x1000000 ++ '.' :: part 0x10000 ++ '.' :: part 0x100 ++ '.' :: part 1

end Ipv4

namespace Ipv6

def group? (cs : List Char) : Option Nat :=
  if cs.isEmpty || 4 < cs.length then none else Ipv4.ofDigits? 16 cs

def octet? (cs : List Char) : Option Nat :=
  match cs with
  | [] | '0' :: _ :: _ => none
  | _ => (Ipv4.ofDigits? 10 cs).filter (· < 256)

def embedded? (cs : List Char) : Option (List Nat) := do
  match ← (splitAt (· = '.') cs).mapM octet? with
  | [a, b, c, d] => some [a * 256 + b, c * 256 + d]
  | _ => none

def groupsOf (mayEmbed : Bool) : List (List Char) → Option (List Nat)
  | [] => some []
  | [last] => if mayEmbed && last.contains '.' then embedded? last else return [← group? last]
  | g :: rest => return (← group? g) :: (← groupsOf mayEmbed rest)

def groups? (mayEmbed : Bool) (cs : List Char) : Option (List Nat) :=
  if cs.isEmpty then some [] else groupsOf mayEmbed (splitAt (· = ':') cs)

def gap? : List Char → Option (List Char × List Char)
  | ':' :: ':' :: rest => some ([], rest)
  | c :: rest => (gap? rest).map fun (before, after) => (c :: before, after)
  | [] => none

def read? (cs : List Char) : Option (List Nat) := do
  match gap? cs with
  | none => (← groups? true cs) |> fun gs => if gs.length = 8 then some gs else none
  | some (before, after) =>
    let front ← groups? false before
    let back ← groups? true after
    if front.length + back.length ≤ 7 then
      some (front ++ List.replicate (8 - front.length - back.length) 0 ++ back)
    else none

def hexDigits (n : Nat) : List Char :=
  if n < 16 then [digit n] else hexDigits (n / 16) ++ [digit (n % 16)]
termination_by n
decreasing_by omega
where
  digit (d : Nat) : Char := Char.ofNat (if d < 10 then 0x30 + d else 0x57 + d)

def zeros (groups : List Nat) : Nat := (groups.takeWhile (· = 0)).length

def longestRun : List Nat → Nat × Nat
  | [] => (0, 0)
  | g :: rest =>
    let (start, length) := longestRun rest
    if length ≤ zeros (g :: rest) then (0, zeros (g :: rest)) else (start + 1, length)

def joined (groups : List Nat) : List Char := [':'].intercalate (groups.map hexDigits)

def write (groups : List Nat) : List Char :=
  let (start, length) := longestRun groups
  if length < 2 then joined groups
  else joined (groups.take start) ++ [':', ':'] ++ joined (groups.drop (start + length))

end Ipv6

end LedgerBroker.Url
