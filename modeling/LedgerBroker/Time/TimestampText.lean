import LedgerBroker.Numeral
import LedgerBroker.Text.Blank
import LedgerBroker.Time.Timestamp

set_option autoImplicit false

namespace LedgerBroker.Timestamp

def writeYear (year : Int) : List Char :=
  if 0 ≤ year ∧ year ≤ 9999 then Numeral.padded 4 year.toNat
  else if year < 0 then '-' :: Numeral.padded 4 (-year).toNat
  else '+' :: Numeral.padded 4 year.toNat

def writeFraction (nano : Nat) : List Char :=
  if nano = 0 then []
  else if nano % 1000000 = 0 then '.' :: Numeral.padded 3 (nano / 1000000)
  else if nano % 1000 = 0 then '.' :: Numeral.padded 6 (nano / 1000)
  else '.' :: Numeral.padded 9 nano

def write (t : Timestamp) : String :=
  String.ofList (writeYear t.date.year ++ '-' :: Numeral.padded 2 t.date.month ++
    '-' :: Numeral.padded 2 t.date.day ++ 'T' :: Numeral.padded 2 t.hour ++
    ':' :: Numeral.padded 2 t.minute ++ ':' :: Numeral.padded 2 t.second ++
    writeFraction t.nano ++ ['Z'])

namespace Reading

def digitRun : Nat → List Char → List Nat × List Char
  | 0, cs => ([], cs)
  | _ + 1, [] => ([], [])
  | most + 1, c :: rest =>
    match Numeral.digitValue? c with
    | none => ([], c :: rest)
    | some d =>
      let (ds, tail) := digitRun most rest
      (d :: ds, tail)

def ofDigits (ds : List Nat) : Nat := ds.foldl (fun n d => n * 10 + d) 0

def number (most : Nat) (cs : List Char) : Option (Nat × List Char) :=
  match digitRun most (Text.trimStart cs) with
  | ([], _) => none
  | (ds, rest) => some (ofDigits ds, rest)

def year (cs : List Char) : Option (Int × List Char) :=
  match Text.trimStart cs with
  | '-' :: rest => signed rest (-1)
  | '+' :: rest => signed rest 1
  | rest => (number 4 rest).map fun (n, tail) => ((n : Int), tail)
where
  signed (rest : List Char) (sign : Int) : Option (Int × List Char) :=
    match digitRun rest.length rest with
    | ([], _) => none
    | (ds, tail) => some (sign * ofDigits ds, tail)

def symbol (c : Char) (cs : List Char) : Option (List Char) :=
  match Text.trimStart cs with
  | d :: rest => if c = d then some rest else none
  | [] => none

def fraction : List Char → Option (Nat × List Char)
  | '.' :: rest =>
    match digitRun 9 rest with
    | ([], _) => none
    | (ds, tail) => some (ofDigits ds * Numeral.power 10 (9 - ds.length), tail.dropWhile Char.isDigit)
  | cs => some (0, cs)

def twoDigits : List Char → Option (Nat × List Char)
  | a :: b :: rest => do return ((← Numeral.digitValue? a) * 10 + (← Numeral.digitValue? b), rest)
  | _ => none

def offset (cs : List Char) : Option (Int × List Char) :=
  match cs with
  | 'Z' :: rest | 'z' :: rest => some (0, rest)
  | '+' :: rest => signed rest 1
  | '-' :: rest => signed rest (-1)
  | '\u2212' :: rest => signed rest (-1)
  | u :: t :: c :: rest =>
    if u.toLower = 'u' ∧ t.toLower = 't' ∧ c.toLower = 'c' then some (0, rest) else none
  | _ => none
where
  signed (rest : List Char) (sign : Int) : Option (Int × List Char) := do
    let (hours, rest) ← twoDigits rest
    let (minutes, rest) ← twoDigits (rest.dropWhile fun c => c = ':' || Text.isBlank c)
    if hours < 24 ∧ minutes < 60 then some (sign * (hours * 60 + minutes : Nat), rest) else none

end Reading

open Reading in
def read (text : String) : Option Timestamp := do
  let (y, rest) ← year text.toList
  let (mo, rest) ← number 2 (← symbol '-' rest)
  let (d, rest) ← number 2 (← symbol '-' rest)
  let rest ← match rest with
    | 'T' :: tail | 't' :: tail | ' ' :: tail => some tail
    | _ => none
  let (h, rest) ← number 2 rest
  let (mi, rest) ← number 2 (← symbol ':' rest)
  let (s, rest) ← number 2 (← symbol ':' rest)
  let (nano, rest) ← fraction rest
  let (ahead, rest) ← offset (Text.trimStart rest)
  if rest.all Text.isBlank then
    (← of? (← Date.of? y mo d) h mi s nano).behind? ahead
  else none

end LedgerBroker.Timestamp
