import LedgerBroker.Outage
import LedgerBroker.Store.Basic

set_option autoImplicit false

namespace LedgerBroker.Store

inductive CallKind
  | saveInstance
  | findInstance
  | instances
  | deleteInstance
  | saveBinding
  | findBinding
  | deleteBinding
  | bindings
  deriving DecidableEq, Repr

inductive Failure
  | absent
  | broken
  deriving DecidableEq, Repr

namespace Failure

def error : StoreError := ⟨"storage call failed", ["connection reset"]⟩

def result {α : Type} (_ : Failure) : Except StoreError α := .error error

def found {α : Type} : Failure → Except StoreError (Option α)
  | absent => .ok none
  | broken => .error error

end Failure

abbrev Outages (σ : Type) := Unreliable CallKind Failure σ

open Unreliable in
def unreliable {σ : Type} (s : Store σ) : Store (Outages σ) where
  saveInstance i := guard .saveInstance Failure.result (s.saveInstance i)
  findInstance id := guard .findInstance Failure.found (s.findInstance id)
  instances := guard .instances Failure.result s.instances
  deleteInstance id := guard .deleteInstance Failure.result (s.deleteInstance id)
  saveBinding b := guard .saveBinding Failure.result (s.saveBinding b)
  findBinding id := guard .findBinding Failure.found (s.findBinding id)
  deleteBinding id := guard .deleteBinding Failure.result (s.deleteBinding id)
  bindings id := guard .bindings Failure.result (s.bindings id)

end LedgerBroker.Store
