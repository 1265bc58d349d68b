import LedgerBroker.Broker.Basic

/-!
A poll looks at the record and at the task without holding the broker; only `completeDeprovision`
holds it.
-/

set_option autoImplicit false

namespace LedgerBroker.Broker

open Step

variable {δ ρ : Type} (s : Services δ ρ)

/-- Whether the deployment of an instance is still being put up. A task that the Director has
forgotten is over. -/
def isBeingDeployed (i : Instance) : Step δ ρ Bool :=
  tryCatch (do return (← onDirector (s.director.task i.provisionTask)).state.isInFlight) fun
    | .taskNotFound _ => return false
    | e => throw e

def deprovision (id : String) (acceptsIncomplete : Bool) (now : Timestamp) :
    Step δ ρ Deletion := do
  if !acceptsIncomplete then throw .asyncRequired
  let some i := ← read (s.store.findInstance id) | throw (.instanceGone id)
  if let some token := i.deprovisionTask then return .deleting token
  if ← isBeingDeployed s i then throw (.provisionInFlight id)
  if (← read (s.store.bindings id)) ≠ [] then throw (.bindingsExist id)
  if (← read (s.store.instancesOn i.deployment)).any (·.id ≠ i.id) then
    delete (s.store.deleteInstance id)
    return .removed
  let task ← onDirector (s.director.deleteDeployment i.deployment)
  save (s.store.saveInstance (i.markDeprovisioning task.token now))
  return .deleting task.token

structure Polled where
  answer : LastOperation
  completesDeletion : Bool
  deriving DecidableEq, Repr

def poll (id : String) (operation : Option String) : Step δ ρ Polled := do
  let some token := operation.filter (· ≠ "") | throw .missingOperation
  let some i := ← read (s.store.findInstance id) | throw (.instanceGone id)
  let task ← onDirector (s.director.task token)
  let kind := if i.deprovisionTask = some token then .deprovision else .provision
  return {
    answer := .ofTaskState kind task.state
    completesDeletion := kind = .deprovision ∧ task.state.isDone }

def completeDeprovision (id : String) : Step δ ρ Unit := do
  let some i := ← read (s.store.findInstance id) | return
  delete (s.store.deleteInstance id)
  let others ← read s.store.instances
  if others.all (·.network ≠ i.network) then onPool (·.release i.network)

def lastOperation (id : String) (operation : Option String) : Step δ ρ LastOperation := do
  let polled ← poll s id operation
  if polled.completesDeletion then completeDeprovision s id
  return polled.answer

end LedgerBroker.Broker
