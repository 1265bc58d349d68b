import LedgerBroker.Broker.Basic

set_option autoImplicit false

namespace LedgerBroker.Broker

open Step

variable {δ ρ : Type} (s : Services δ ρ)

def joinable (deployment : String) : Step δ ρ (Option Instance) := do
  let existing ← read (s.store.instancesOn deployment)
  if existing = [] then return none
  match existing.find? (!·.isDeprovisioning) with
  | none => throw (.deprovisionInFlight deployment)
  | some live => return some live

def isTaken (deployment : String) : Step δ ρ Bool := do
  if (← get).pool.isOrphaned deployment then return true
  return (← read (s.store.instancesOn deployment)) ≠ []

def deploy (id : String) (plan : Plan) (request : Request) (choice : Nat) (now : Timestamp) :
    Step δ ρ String := do
  let deployment := plan.deployment id
  let network ← acquireNetwork choice
  let manifest := Manifest.render deployment network plan.isPermissioned s.details
  let task ← orElseUndo (onDirector (s.director.createDeployment manifest)) (·.release network)
  let instance_ := Instance.new id deployment network task.token request now
  orElseUndo (save (s.store.saveInstance instance_)) (·.quarantine deployment network)
  return task.token

def provision (id : String) (request : Request) (acceptsIncomplete : Bool) (choice : Nat)
    (now : Timestamp) : Step δ ρ String := do
  if !acceptsIncomplete then throw .asyncRequired
  let some plan := Plan.resolve? request.serviceId request.planId
    | throw (.invalidServicePlan request.serviceId request.planId)
  if (← read (s.store.findInstance id)).isSome then throw (.instanceAlreadyExists id)
  let deployment := plan.deployment id
  match ← if plan.isShared then joinable s deployment else pure none with
  | some live =>
    save (s.store.saveInstance
      (Instance.new id deployment live.network live.provisionTask request now))
    return live.provisionTask
  | none =>
    if ← isTaken s deployment then throw (.instanceAlreadyExists id)
    deploy s id plan request choice now

def unrecorded (recorded : List String) :
    List String → Step δ ρ (List (String × String))
  | [] => return []
  | deployment :: rest => do
    if recorded.contains deployment then unrecorded recorded rest
    else
      match ← onDirector (s.director.network deployment) with
      | none => unrecorded recorded rest
      | some network =>
        let others ← unrecorded recorded rest
        return if others.any (·.1 = deployment) then others else (deployment, network) :: others

def refresh : Step δ ρ Unit := do
  let instances ← read s.store.instances
  let deployments ← onDirector s.director.deployments
  let orphans ← unrecorded s (instances.map (·.deployment)) deployments
  onPool (·.refresh instances orphans)

end LedgerBroker.Broker
