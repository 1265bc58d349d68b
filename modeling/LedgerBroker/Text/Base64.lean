import LedgerBroker.Bytes

set_option autoImplicit false

namespace LedgerBroker.Text.Base64

def letter (n : Nat) : Char :=
  Char.ofNat (
    if n < 26 then 0x41 + n
    else if n < 52 then 0x47 + n
    else if n < 62 then n - 4
    else if n = 62 then 0x2B
    else 0x2F)

def encode : Bytes → List Char
  | [] => []
  | [a] => [letter (a.toNat / 4), letter (a.toNat % 4 * 16), '=', '=']
  | [a, b] => [
      letter (a.toNat / 4),
      letter (a.toNat % 4 * 16 + b.toNat / 16),
      letter (b.toNat % 16 * 4), '=']
  | a :: b :: c :: rest =>
    letter (a.toNat / 4) ::
    letter (a.toNat % 4 * 16 + b.toNat / 16) ::
    letter (b.toNat % 16 * 4 + c.toNat / 64) ::
    letter (c.toNat % 64) :: encode rest

end LedgerBroker.Text.Base64
