import LedgerBroker.Bytes

set_option autoImplicit false

namespace LedgerBroker.PercentEncoding

def hexDigit (n : Nat) : Char := Char.ofNat (if n < 10 then 0x30 + n else 0x37 + n)

def escapeByte (b : UInt8) : List Char := ['%', hexDigit (b.toNat / 16), hexDigit (b.toNat % 16)]

def escape (c : Char) : List Char := (String.utf8EncodeChar c).flatMap escapeByte

def encode (isEscaped : Char → Bool) (cs : List Char) : List Char :=
  cs.flatMap fun c => if isEscaped c then escape c else [c]

def decode : Bytes → Bytes
  | 0x25 :: a :: b :: rest =>
    match Bytes.hexValue? a, Bytes.hexValue? b with
    | some x, some y => (x * 16 + y).toUInt8 :: decode rest
    | _, _ => 0x25 :: decode (a :: b :: rest)
  | b :: rest => b :: decode rest
  | [] => []
termination_by b => b.length

def isControl (c : Char) : Bool := c.toNat < 0x20 || 0x7F ≤ c.toNat

def isEscapedInFragment (c : Char) : Bool := isControl c || [' ', '"', '<', '>', '\x60'].contains c

def isEscapedInQuery (inSpecial : Bool) (c : Char) : Bool :=
  isControl c || [' ', '"', '#', '<', '>'].contains c || (inSpecial && c = '\'')

def isEscapedInPath (c : Char) : Bool :=
  isEscapedInFragment c || ['#', '?', '\x7b', '\x7d'].contains c

def isEscapedInSegment (inSpecial : Bool) (c : Char) : Bool :=
  isEscapedInPath c || c = '/' || c = '%' || (inSpecial && c = '\\')

def isEscapedInUserInfo (c : Char) : Bool :=
  isEscapedInPath c || ['/', ':', ';', '=', '@', '[', '\\', ']', '^', '|'].contains c

end LedgerBroker.PercentEncoding
