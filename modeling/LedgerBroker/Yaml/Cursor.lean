import LedgerBroker.Yaml.Letter

set_option autoImplicit false

namespace LedgerBroker.Yaml

structure Cursor where
  rest : List Char
  index : Nat
  line : Nat
  column : Nat

namespace Cursor

def start (text : List Char) : Cursor := ⟨text, 0, 0, 0⟩

def skip (c : Cursor) (n : Nat) : Cursor :=
  { c with rest := c.rest.drop n, index := c.index + n, column := c.column + n }

def readBreak (c : Cursor) : List Char × Cursor :=
  match c.rest with
  | '\r' :: '\n' :: rest => (['\n'], ⟨rest, c.index + 2, c.line + 1, 0⟩)
  | b :: rest =>
    if isBreak b then
      let text := if b = '\u2028' ∨ b = '\u2029' then [b] else ['\n']
      (text, ⟨rest, c.index + 1, c.line + 1, 0⟩)
    else ([], c)
  | [] => ([], c)

def skipWhile (c : Cursor) (p : Char → Bool) : Cursor := c.skip (c.rest.takeWhile p).length

def peekIs (c : Cursor) (p : Char → Bool) : Bool := c.rest.head?.any p

def skipToBreak (c : Cursor) : Cursor := c.skipWhile (!isBreak ·)

def skipComment (c : Cursor) : Cursor := if c.peekIs (· = '#') then c.skipToBreak else c

def atMarker (c : Cursor) : Bool :=
  c.column = 0 && (c.rest.take 3 = ['-', '-', '-'] || c.rest.take 3 = ['.', '.', '.']) &&
    endsWord (c.rest.drop 3)

end Cursor

end LedgerBroker.Yaml
