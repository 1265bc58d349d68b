import LedgerBroker.Broker.Basic

set_option autoImplicit false

namespace LedgerBroker.Broker

open Step

variable {δ ρ : Type} (s : Services δ ρ)

def bind (id bindingId : String) (request : BindRequest) (now : Timestamp) :
    Step δ ρ Credentials := do
  if (Plan.resolve? request.serviceId request.planId).isNone then
    throw (.invalidServicePlan request.serviceId request.planId)
  if (← read (s.store.findBinding bindingId)).isSome then throw (.bindingAlreadyExists bindingId)
  let some i := ← read (s.store.findInstance id) | throw (.instanceNotFound id)
  if i.isDeprovisioning then throw (.deprovisionInFlight id)
  let task ← onDirector (s.director.task i.provisionTask)
  if !task.state.isDone then throw (.provisionInFlight id)
  let ips ← onDirector (s.director.vmIps i.deployment)
  save (s.store.saveBinding ⟨bindingId, id, now⟩)
  return .ofAddresses (ips.get "peer")

def unbind (id bindingId : String) : Step δ ρ Unit := do
  if (← read (s.store.findInstance id)).isNone then throw (.instanceNotFound id)
  let some b := (← read (s.store.findBinding bindingId)).filter (·.instanceId = id)
    | throw (.bindingGone bindingId)
  delete (s.store.deleteBinding b.id)

end LedgerBroker.Broker
