import LedgerBroker.Bytes

set_option autoImplicit false

namespace LedgerBroker.Text

def replacement : Char := '\uFFFD'

def followers? (b : UInt8) : Option (Nat × UInt8 × UInt8) :=
  if 0xC2 ≤ b ∧ b ≤ 0xDF then some (1, 0x80, 0xBF)
  else if b = 0xE0 then some (2, 0xA0, 0xBF)
  else if b = 0xED then some (2, 0x80, 0x9F)
  else if 0xE1 ≤ b ∧ b ≤ 0xEF then some (2, 0x80, 0xBF)
  else if b = 0xF0 then some (3, 0x90, 0xBF)
  else if 0xF1 ≤ b ∧ b ≤ 0xF3 then some (3, 0x80, 0xBF)
  else if b = 0xF4 then some (3, 0x80, 0x8F)
  else none

structure Partial where
  value : Nat
  missing : Nat
  low : UInt8
  high : UInt8

def Partial.start? (b : UInt8) : Option Partial :=
  (followers? b).map fun (n, low, high) =>
    ⟨b.toNat % (if n = 1 then 0x20 else if n = 2 then 0x10 else 8), n, low, high⟩

/-- Reads UTF-8. The bytes of a character that breaks off are replaced as one. -/
def readUtf8 : Option Partial → Bytes → List Char
  | none, [] => []
  | some _, [] => [replacement]
  | none, b :: rest =>
    if b < 0x80 then Char.ofNat b.toNat :: readUtf8 none rest
    else
      match Partial.start? b with
      | none => replacement :: readUtf8 none rest
      | some p => readUtf8 (some p) rest
  | some p, b :: rest =>
    if p.low ≤ b ∧ b ≤ p.high then
      let value := p.value * 0x40 + b.toNat % 0x40
      if p.missing = 1 then Char.ofNat value :: readUtf8 none rest
      else readUtf8 (some ⟨value, p.missing - 1, 0x80, 0xBF⟩) rest
    else if b < 0x80 then replacement :: Char.ofNat b.toNat :: readUtf8 none rest
    else
      match Partial.start? b with
      | none => replacement :: replacement :: readUtf8 none rest
      | some q => replacement :: readUtf8 (some q) rest

/-- A byte order mark in front is not part of the text. -/
def ofUtf8 : Bytes → String
  | 0xEF :: 0xBB :: 0xBF :: rest => String.ofList (readUtf8 none rest)
  | bytes => String.ofList (readUtf8 none bytes)

end LedgerBroker.Text
