set_option autoImplicit false

namespace LedgerBroker

structure Duration where
  nanos : Nat
  deriving DecidableEq, Repr

namespace Duration

def zero : Duration := ⟨0⟩

def ofMillis (n : Nat) : Duration := ⟨n * 1000000⟩

def seconds (d : Duration) : Nat := d.nanos / 1000000000

def subsecondNanos (d : Duration) : Nat := d.nanos % 1000000000

def Fits (d : Duration) : Prop := d.seconds < 0x10000000000000000

instance (d : Duration) : Decidable d.Fits := inferInstanceAs (Decidable (_ < _))

/-- The exact multiple. A program that works out one that does not fit is stopped by it. -/
def times (d : Duration) (n : Nat) : Duration := ⟨d.nanos * n⟩

def add (a b : Duration) : Duration := ⟨a.nanos + b.nanos⟩

end Duration

end LedgerBroker
