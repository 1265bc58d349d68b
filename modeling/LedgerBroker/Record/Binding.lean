import LedgerBroker.Record.Instance

set_option autoImplicit false

namespace LedgerBroker

structure Binding where
  id : String
  instanceId : String
  createdAt : Timestamp
  deriving DecidableEq, Repr

namespace Binding

def validate (b : Binding) : Except RecordFault Unit := do
  if b.instanceId = "" then throw .emptyServiceInstance
  if b.id = "" then throw .emptyId

def json (b : Binding) : Json :=
  .obj [
    ("id", .str b.id),
    ("service_instance_id", .str b.instanceId),
    ("created_at", .str b.createdAt.write)]

structure Draft where
  id : Option String := none
  instanceId : Option String := none
  createdAt : Option Timestamp := none

open Json.Reader in
def slots : List (Slot Draft) := [
  .of "id" (·.id) (fun d v => { d with id := some v }) string,
  .of "service_instance_id" (·.instanceId) (fun d v => { d with instanceId := some v }) string,
  .of "created_at" (·.createdAt) (fun d v => { d with createdAt := some v }) timestamp]

def reader : Json.Reader Binding :=
  Json.Reader.record ({} : Draft) slots fun d =>
    do return ⟨← d.id, ← d.instanceId, ← d.createdAt⟩

end Binding

end LedgerBroker
