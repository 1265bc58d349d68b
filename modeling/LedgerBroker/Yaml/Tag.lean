import LedgerBroker.Yaml.Cursor

set_option autoImplicit false

namespace LedgerBroker.Yaml

def takeWord (c : Cursor) : List Char × Cursor :=
  let w := c.rest.takeWhile isWordChar
  (w, c.skip w.length)

def anchorName? (c : Cursor) : Option (String × Cursor) :=
  let (w, c) := takeWord c
  if w ≠ [] ∧ (endsWord c.rest ∨ c.peekIs fun d => "?:,]\x7d%@\x60".toList.contains d) then
    some (String.ofList w, c)
  else none

namespace Tag

def hexValue? (c : Char) : Option Nat :=
  if c.isDigit then some (c.toNat - 0x30)
  else if 'a' ≤ c ∧ c ≤ 'f' then some (c.toNat - 0x57)
  else if 'A' ≤ c ∧ c ≤ 'F' then some (c.toNat - 0x37)
  else none

def escapedBytes : List Char → Nat → List UInt8 × Nat
  | '%' :: a :: b :: rest, n =>
    match hexValue? a, hexValue? b with
    | some x, some y =>
      let (bytes, m) := escapedBytes rest (n + 3)
      ((x * 16 + y).toUInt8 :: bytes, m)
    | _, _ => ([], n)
  | _, n => ([], n)

def isUriChar (verbatim : Bool) (c : Char) : Bool :=
  isWordChar c || ";/?:@&=+$.%!~*'()".toList.contains c ||
    (verbatim && (c = ',' || c = '[' || c = ']'))

def uri (verbatim : Bool) : Nat → Cursor → Option (List Char × Cursor)
  | 0, c => some ([], c)
  | turns + 1, c =>
    match c.rest with
    | [] => some ([], c)
    | d :: _ =>
      if d = '%' then
        let (bytes, n) := escapedBytes c.rest 0
        match String.fromUTF8? ⟨bytes.toArray⟩ with
        | none => none
        | some s =>
          if n = 0 then none
          else (uri verbatim turns (c.skip n)).map fun (cs, last) => (s.toList ++ cs, last)
      else if isUriChar verbatim d then
        (uri verbatim turns (c.skip 1)).map fun (cs, last) => (d :: cs, last)
      else some ([], c)

def uriFrom (verbatim : Bool) (c : Cursor) : Option (List Char × Cursor) :=
  uri verbatim c.rest.length c

def handle? (c : Cursor) : Option (List Char × Cursor) :=
  if c.peekIs (· = '!') then
    let (w, c) := takeWord (c.skip 1)
    if c.peekIs (· = '!') then some ('!' :: w ++ ['!'], c.skip 1) else some ('!' :: w, c)
  else none

def read (inFlow : Bool) (c : Cursor) : Option (String × String × Cursor) := do
  let (handle, suffix, c) ←
    if c.rest.take 2 = ['!', '<'] then
      let (text, c) ← uriFrom true (c.skip 2)
      if text = [] ∨ !c.peekIs (· = '>') then none
      some ([], text, c.skip 1)
    else
      let (head, c) ← handle? c
      let (tail, c) ← uriFrom false c
      if 1 < head.length ∧ head.getLast? = some '!' then
        if tail = [] then none
        some (head, tail, c)
      else
        let text := head.drop 1 ++ tail
        some (if text = [] then ([], ['!'], c) else (['!'], text, c))
  if endsWord c.rest ∨ (inFlow ∧ c.peekIs (· = ',')) then
    some (String.ofList handle, String.ofList suffix, c)
  else none

end Tag

namespace Directive

inductive Kind
  | version (major minor : Nat)
  | tagPrefix (handle text : String)

def number? (c : Cursor) : Option (Nat × Cursor) :=
  let ds := c.rest.takeWhile Char.isDigit
  if ds = [] ∨ 9 < ds.length then none
  else some (ds.foldl (fun n d => n * 10 + (d.toNat - 0x30)) 0, c.skip ds.length)

def read (c : Cursor) : Option (Kind × Cursor) := do
  let (name, c) := takeWord c
  if !endsWord c.rest then none
  let c := c.skipWhile isSpace
  let (kind, c) ←
    match String.ofList name with
    | "YAML" =>
      let (major, c) ← number? c
      if !c.peekIs (· = '.') then none
      let (minor, c) ← number? (c.skip 1)
      some (Kind.version major minor, c)
    | "TAG" =>
      let (handle, c) ← Tag.handle? c
      if handle ≠ ['!'] ∧ handle.getLast? ≠ some '!' then none
      if !c.peekIs isSpace then none
      let (text, c) ← Tag.uriFrom true (c.skipWhile isSpace)
      if text = [] ∨ !endsWord c.rest then none
      some (Kind.tagPrefix (String.ofList handle) (String.ofList text), c)
    | _ => none
  let c := (c.skipWhile isSpace).skipComment
  if c.rest.isEmpty || c.peekIs isBreak then some (kind, c.readBreak.2) else none

end Directive

end LedgerBroker.Yaml
