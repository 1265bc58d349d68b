import LedgerBroker.Record.Binding
import LedgerBroker.Service

set_option autoImplicit false

namespace LedgerBroker

structure StoreError where
  message : String
  causes : List String := []
  deriving DecidableEq, Repr

namespace StoreError

def chain (e : StoreError) : String := ": ".intercalate (e.message :: e.causes)

def ofRecordFault (fault : RecordFault) : StoreError := ⟨fault.message, []⟩

end StoreError

structure Store (σ : Type) where
  saveInstance : Instance → Call StoreError σ Unit
  findInstance : String → Call StoreError σ (Option Instance)
  instances : Call StoreError σ (List Instance)
  deleteInstance : String → Call StoreError σ Unit
  saveBinding : Binding → Call StoreError σ Unit
  findBinding : String → Call StoreError σ (Option Binding)
  deleteBinding : String → Call StoreError σ Unit
  bindings : String → Call StoreError σ (List Binding)

namespace Store

def instancesOn {σ : Type} (store : Store σ) (deployment : String) :
    Call StoreError σ (List Instance) := do
  return (← store.instances).filter (·.deployment = deployment)

end Store

end LedgerBroker
