import LedgerBroker.Service

set_option autoImplicit false

namespace LedgerBroker

/-- Calls of a kind fail once `after` more of them went through. -/
structure Outage (κ φ : Type) where
  kind : κ
  after : Nat
  fault : φ

structure Unreliable (κ φ σ : Type) where
  service : σ
  outages : List (Outage κ φ) := []

namespace Unreliable

variable {κ φ σ : Type} [DecidableEq κ]

def mend (u : Unreliable κ φ σ) (kind : κ) : Unreliable κ φ σ :=
  { u with outages := u.outages.filter (·.kind ≠ kind) }

def announce (u : Unreliable κ φ σ) (outage : Outage κ φ) : Unreliable κ φ σ :=
  { u with outages := outage :: (u.mend outage.kind).outages }

def meet (u : Unreliable κ φ σ) (kind : κ) : Except φ (Unreliable κ φ σ) :=
  match u.outages.find? (·.kind = kind) with
  | none => .ok u
  | some ⟨_, 0, fault⟩ => .error fault
  | some ⟨_, n + 1, fault⟩ => .ok (u.announce ⟨kind, n, fault⟩)

def guard {ε α : Type} (kind : κ) (failed : φ → Except ε α) (call : Call ε σ α) :
    Call ε (Unreliable κ φ σ) α :=
  .of fun u =>
    match u.meet kind with
    | .error fault => (failed fault, u)
    | .ok u =>
      let (result, service) := call.exec u.service
      (result, { u with service := service })

end Unreliable

end LedgerBroker
