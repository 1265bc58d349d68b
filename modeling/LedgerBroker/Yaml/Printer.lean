import LedgerBroker.Yaml.Basic
import LedgerBroker.Yaml.Letter

set_option autoImplicit false

namespace LedgerBroker.Yaml

inductive Style
  | plain
  | single
  | double
  | literal
  deriving DecidableEq, Repr

namespace Style

def isAmbiguous (s : String) : Bool :=
  match Scalar.ofPlain s with
  | .str _ => Scalar.isZeroPadded s.toList
  | _ => true

def isIndicator (c : Char) : Bool :=
  ",[]\x7b\x7d#&*!|>'\"%@\x60".toList.contains c

def interrupts : Char → List Char → Bool
  | _, [] => false
  | before, c :: rest =>
    (c = ':' && endsWord rest) || (c = '#' && isSpaceOrBreak before) || interrupts c rest

def startsAsIndicator : List Char → Bool
  | [] => false
  | c :: rest =>
    isIndicator c || ((c = '?' || c = ':' || c = '-') && endsWord rest)

def startsAsMarker (cs : List Char) : Bool :=
  cs.take 3 = ['-', '-', '-'] || cs.take 3 = ['.', '.', '.']

def hasPair (p q : Char → Bool) : List Char → Bool
  | c :: d :: rest => (p c && q d) || hasPair p q (d :: rest)
  | _ => false

def touchesEdge (p : Char → Bool) (cs : List Char) : Bool :=
  (cs.head?.any p) || (cs.getLast?.any p)

def isSpecial (cs : List Char) : Bool :=
  cs.any (!isPrintable ·) || hasPair (· = ' ') isBreak cs

def allowsPlain (cs : List Char) : Bool :=
  !isSpecial cs && !cs.any isBreak && !touchesEdge (· = ' ') cs && !startsAsMarker cs &&
    !startsAsIndicator cs &&
    match cs with
    | [] => true
    | c :: rest => !interrupts c rest

def allowsSingle (cs : List Char) : Bool :=
  !isSpecial cs && !hasPair isBreak (· = ' ') cs

def allowsLiteral (cs : List Char) : Bool :=
  !isSpecial cs && cs.getLast? ≠ some ' '

def of (s : String) : Style :=
  let cs := s.toList
  if cs.contains '\n' then if allowsLiteral cs then literal else double
  else if !isAmbiguous s && allowsPlain cs then plain
  else if allowsSingle cs then single
  else double

end Style

def spaces (n : Nat) : List Char := List.replicate n ' '

def hexUpper (n : Nat) : Char := Char.ofNat (if n < 10 then 0x30 + n else 0x37 + n)

def hexDigits : Nat → Nat → List Char
  | 0, _ => []
  | width + 1, n => hexDigits width (n / 16) ++ [hexUpper (n % 16)]

def escapeNamed? (c : Char) : Option Char :=
  match c.toNat with
  | 0x00 => some '0'
  | 0x07 => some 'a'
  | 0x08 => some 'b'
  | 0x09 => some 't'
  | 0x0A => some 'n'
  | 0x0B => some 'v'
  | 0x0C => some 'f'
  | 0x0D => some 'r'
  | 0x1B => some 'e'
  | 0x22 => some '"'
  | 0x5C => some '\\'
  | 0x85 => some 'N'
  | 0xA0 => some '_'
  | 0x2028 => some 'L'
  | 0x2029 => some 'P'
  | _ => none

def escapeDouble (c : Char) : List Char :=
  if isPrintable c && !isBreak c && c ≠ '"' && c ≠ '\\' then [c]
  else
    match escapeNamed? c with
    | some e => ['\\', e]
    | none =>
      let n := c.toNat
      if n ≤ 0xFF then '\\' :: 'x' :: hexDigits 2 n
      else if n ≤ 0xFFFF then '\\' :: 'u' :: hexDigits 4 n
      else '\\' :: 'U' :: hexDigits 8 n

def singleBody (indent : Nat) : Bool → List Char → List Char
  | afterBreak, [] => if afterBreak then spaces indent else []
  | afterBreak, c :: rest =>
    if isBreak c then c :: singleBody indent true rest
    else
      (if afterBreak then spaces indent else []) ++
        (if c = '\'' then ['\'', '\''] else [c]) ++ singleBody indent false rest

def literalBody (indent : Nat) : Bool → List Char → List Char
  | _, [] => []
  | afterBreak, c :: rest =>
    if isBreak c then c :: literalBody indent true rest
    else (if afterBreak then spaces indent else []) ++ c :: literalBody indent false rest

def literalHints (cs : List Char) : List Char :=
  (if cs.head?.any isSpaceOrBreak then ['2'] else []) ++
    match cs.reverse with
    | [] => ['-']
    | [last] => if isBreak last then ['+'] else ['-']
    | last :: before :: _ =>
      if !isBreak last then ['-'] else if isBreak before then ['+'] else []

def textBody (indent : Nat) (s : String) : List Char :=
  let cs := s.toList
  match Style.of s with
  | .plain => cs
  | .single => '\'' :: (singleBody indent false cs ++ ['\''])
  | .double => '"' :: (cs.flatMap escapeDouble ++ ['"'])
  | .literal => '|' :: (literalHints cs ++ '\n' :: literalBody indent true cs)

def integerText (n : Int) : List Char :=
  (if n < 0 then ['-'] else []) ++ (Numeral.digits n.natAbs).map Numeral.digitChar

def floatLayout : Double.Layout := ⟨-5, 16⟩

def floatText : Double → List Char
  | .infinite false => ".inf".toList
  | .infinite true => "-.inf".toList
  | .nan => ".nan".toList
  | .finite negative m e => Double.write negative m e floatLayout

def inline? (indent : Nat) : Yaml → Option (List Char)
  | null => some "null".toList
  | bool b => some (if b then "true".toList else "false".toList)
  | int n => some (integerText n)
  | float x => some (floatText x)
  | str s => some (textBody indent s)
  | seq [] => some ['[', ']']
  | map [] => some ['\x7b', '\x7d']
  | seq _ | map _ | tagged _ _ => none

def endLine (cs : List Char) : List Char :=
  if cs.getLast?.any isBreak then cs else cs ++ ['\n']

def isTagChar (c : Char) : Bool :=
  isWordChar c || ";/?:@&=+$,.~*'()[]!".toList.contains c

def tagText (tag : String) : List Char :=
  '!' :: tag.toList.flatMap fun c =>
    if isTagChar c then [c]
    else (String.utf8EncodeChar c).flatMap fun b => '%' :: hexDigits 2 b.toNat

/-- Keys of up to 128 bytes on one line stand before a colon; others after a question mark. -/
def simpleKey? (indent : Nat) (key : Yaml) : Option (List Char) :=
  match key with
  | str s => if s.toList.any isBreak ∨ 128 < s.utf8ByteSize then none else inline? indent key
  | _ => inline? indent key

inductive Place
  | key
  | dash
  | mark
  | tag (inSequence : Bool)

def Place.dashColumn (indent : Nat) : Place → Nat
  | .key | .tag false => indent
  | .dash | .mark | .tag true => indent + 2

def Place.sameLine : Place → Bool
  | .dash | .mark => true
  | .key | .tag _ => false

def Place.isDash : Place → Bool
  | .dash => true
  | .key | .mark | .tag _ => false

def opening (place : Place) (column : Nat) : List Char :=
  if place.sameLine then [' '] else '\n' :: spaces column

mutual

def value (indent : Nat) (place : Place) : Yaml → List Char
  | tagged tag inner => ' ' :: (tagText tag ++ value indent (.tag place.isDash) inner)
  | seq (item :: rest) =>
    let column := place.dashColumn indent
    opening place column ++ '-' :: (value column .dash item ++ items column rest)
  | map (entry :: rest) =>
    opening place (indent + 2) ++ mapping (indent + 2) entry ++ entries (indent + 2) rest
  | other => endLine (' ' :: (inline? (indent + 2) other).getD [])

def items (indent : Nat) : List Yaml → List Char
  | [] => []
  | item :: rest => spaces indent ++ '-' :: (value indent .dash item ++ items indent rest)

def entries (indent : Nat) : List (Yaml × Yaml) → List Char
  | [] => []
  | entry :: rest => spaces indent ++ mapping indent entry ++ entries indent rest

def mapping (indent : Nat) : Yaml × Yaml → List Char
  | (k, v) =>
    match simpleKey? indent k with
    | some text => text ++ ':' :: value indent .key v
    | none => '?' :: (value indent .mark k ++ spaces indent ++ ':' :: value indent .mark v)

end

def document (fields : List (Yaml × Yaml)) : List Char :=
  if fields.isEmpty then "\x7b\x7d\n".toList else entries 0 fields

end LedgerBroker.Yaml
