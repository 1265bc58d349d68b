import LedgerBroker.Time.Duration

set_option autoImplicit false

namespace LedgerBroker

structure RetryPolicy where
  initialDelay : Duration
  maxAttempts : Nat
  step : Duration
  deriving DecidableEq, Repr

namespace RetryPolicy

def default : RetryPolicy := ⟨.ofMillis 500, 3, .ofMillis 1000⟩

def immediate (maxAttempts : Nat) : RetryPolicy := ⟨.zero, maxAttempts, .zero⟩

def delayAfter (p : RetryPolicy) (attempt : Nat) : Option Duration :=
  if p.maxAttempts ≤ attempt then none else some (p.step.times attempt)

end RetryPolicy

end LedgerBroker
