import LedgerBroker.Text.LowerCase
import LedgerBroker.Url.Address
import LedgerBroker.Url.PercentEncoding
import LedgerBroker.Url.Punycode

set_option autoImplicit false

namespace LedgerBroker.Url.Domain

def isForbidden (c : Char) : Bool :=
  c.toNat ≤ 0x20 || c.toNat = 0x7F ||
  ['#', '%', '/', ':', '<', '>', '?', '@', '[', '\\', ']', '^', '|'].contains c

def isIgnored (c : Char) : Bool :=
  let n := c.toNat
  n = 0xAD || n = 0x34F || n = 0x200B || n = 0x2060 || n = 0x2064 || n = 0xFEFF ||
  (0x180B ≤ n && n ≤ 0x180F) || (0xFE00 ≤ n && n ≤ 0xFE0F) || (0xE0100 ≤ n && n ≤ 0xE01EF)

def plain (c : Char) : Char :=
  let n := c.toNat
  if 0xFF01 ≤ n ∧ n ≤ 0xFF5E then Char.ofNat (n - 0xFEE0)
  else if n = 0x3002 ∨ n = 0xFF61 then '.'
  else if n = 0x1E9E then 'ß'
  else c

def map (cs : List Char) : List Char :=
  (cs.filter (!isIgnored ·)).flatMap fun c => Text.lowerChar (plain c)

def isMeaningless (c : Char) : Bool :=
  let n := c.toNat
  (0x80 ≤ n && n ≤ 0x9F) || n = 0x200C || n = 0x200D || n = 0x2028 || n = 0x2029 ||
  (0xE000 ≤ n && n ≤ 0xF8FF) ||
  (0xFDD0 ≤ n && n ≤ 0xFDEF) || (0xFFF0 ≤ n && n ≤ 0xFFFF) || 0xE0000 ≤ n || n % 0x10000 ≥ 0xFFFE

def isAscii (cs : List Char) : Bool := cs.all (·.toNat < 0x80)

def mark : List Char := ['x', 'n', '-', '-']

def label? (cs : List Char) : Option (List Char) :=
  if mark.isPrefixOf cs then
    match (if isAscii cs then Punycode.decode? (cs.drop 4) else none) with
    | none => none
    | some decoded =>
      if isAscii decoded || map decoded ≠ decoded || decoded.any isMeaningless then none
      else some cs
  else if isAscii cs then some cs
  else if cs.any isMeaningless then none
  else some (mark ++ Punycode.encode cs)

def toAscii? (bytes : Bytes) : Option (List Char) := do
  let name := map (← Bytes.text? bytes).toList
  if name.any isForbidden then none
  else return ['.'].intercalate (← (splitAt (· = '.') name).mapM label?)

end LedgerBroker.Url.Domain
