set_option autoImplicit false

namespace LedgerBroker

abbrev Bytes := List UInt8

namespace Bytes

def ofString (s : String) : Bytes := s.toUTF8.data.toList

def text? (b : Bytes) : Option String := String.fromUTF8? ⟨b.toArray⟩

@[simp] theorem text?_ofString (s : String) : text? (ofString s) = some s := by
  simp [text?, ofString, String.fromUTF8?]
  exact ⟨s.isValidUTF8, rfl⟩

def ascii (c : Char) : UInt8 := c.toNat.toUInt8

def hexValue? (b : UInt8) : Option Nat :=
  if 0x30 ≤ b ∧ b ≤ 0x39 then some (b - 0x30).toNat
  else if 0x41 ≤ b ∧ b ≤ 0x46 then some (b - 0x41 + 10).toNat
  else if 0x61 ≤ b ∧ b ≤ 0x66 then some (b - 0x61 + 10).toNat
  else none

def isDigit (b : UInt8) : Bool := 0x30 ≤ b && b ≤ 0x39

end Bytes

end LedgerBroker
