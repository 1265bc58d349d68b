import LedgerBroker.Json.Record
import LedgerBroker.Time.TimestampText

set_option autoImplicit false

namespace LedgerBroker

namespace Json.Reader

def timestamp : Json.Reader Timestamp := do
  match Timestamp.read (← string) with
  | none => mismatch
  | some t => return t

end Json.Reader

inductive RecordFault
  | emptyId
  | emptyDeployment
  | emptyNetwork
  | emptyBlockchainNetwork
  | emptyServiceInstance
  deriving DecidableEq, Repr

def RecordFault.message : RecordFault → String
  | emptyId => "Id cannot be empty"
  | emptyDeployment => "DeploymentName cannot be empty"
  | emptyNetwork => "NetworkName cannot be empty"
  | emptyBlockchainNetwork => "BlockchainNetworkId cannot be empty"
  | emptyServiceInstance => "ServiceInstanceId cannot be empty"

structure Request where
  serviceId : String
  planId : String
  organizationGuid : String
  spaceGuid : String
  deriving DecidableEq, Repr

structure Instance where
  id : String
  deployment : String
  network : String
  blockchainNetworkId : String
  request : Request
  provisionTask : String
  deprovisionTask : Option String
  createdAt : Timestamp
  updatedAt : Timestamp
  deriving DecidableEq, Repr

namespace Instance

def new (id deployment network provisionTask : String) (request : Request) (now : Timestamp) :
    Instance where
  id := id
  deployment := deployment
  network := network
  blockchainNetworkId := id
  request := request
  provisionTask := provisionTask
  deprovisionTask := none
  createdAt := now
  updatedAt := now

def markDeprovisioning (i : Instance) (task : String) (now : Timestamp) : Instance :=
  { i with deprovisionTask := some task, updatedAt := now }

def isDeprovisioning (i : Instance) : Bool := i.deprovisionTask.isSome

def validate (i : Instance) : Except RecordFault Unit := do
  if i.id = "" then throw .emptyId
  if i.deployment = "" then throw .emptyDeployment
  if i.network = "" then throw .emptyNetwork
  if i.blockchainNetworkId = "" then throw .emptyBlockchainNetwork

def json (i : Instance) : Json :=
  .obj ([
    ("id", .str i.id),
    ("deployment_name", .str i.deployment),
    ("network_name", .str i.network),
    ("blockchain_network_id", .str i.blockchainNetworkId),
    ("service_id", .str i.request.serviceId),
    ("plan_id", .str i.request.planId),
    ("organization_guid", .str i.request.organizationGuid),
    ("space_guid", .str i.request.spaceGuid),
    ("provision_task_id", .str i.provisionTask)] ++
    Json.optionalField "deprovision_task_id" i.deprovisionTask ++ [
    ("created_at", .str i.createdAt.write),
    ("updated_at", .str i.updatedAt.write)])

structure Draft where
  id : Option String := none
  deployment : Option String := none
  network : Option String := none
  blockchainNetworkId : Option String := none
  serviceId : Option String := none
  planId : Option String := none
  organizationGuid : Option String := none
  spaceGuid : Option String := none
  provisionTask : Option String := none
  deprovisionTask : Option (Option String) := none
  createdAt : Option Timestamp := none
  updatedAt : Option Timestamp := none

def Draft.finish (d : Draft) : Option Instance := do
  return {
    id := ← d.id
    deployment := ← d.deployment
    network := ← d.network
    blockchainNetworkId := ← d.blockchainNetworkId
    request := {
      serviceId := ← d.serviceId
      planId := ← d.planId
      organizationGuid := ← d.organizationGuid
      spaceGuid := ← d.spaceGuid }
    provisionTask := ← d.provisionTask
    deprovisionTask := d.deprovisionTask.getD none
    createdAt := ← d.createdAt
    updatedAt := ← d.updatedAt }

open Json.Reader in
def slots : List (Slot Draft) := [
  .of "id" (·.id) (fun d v => { d with id := some v }) string,
  .of "deployment_name" (·.deployment) (fun d v => { d with deployment := some v }) string,
  .of "network_name" (·.network) (fun d v => { d with network := some v }) string,
  .of "blockchain_network_id" (·.blockchainNetworkId)
    (fun d v => { d with blockchainNetworkId := some v }) string,
  .of "service_id" (·.serviceId) (fun d v => { d with serviceId := some v }) string,
  .of "plan_id" (·.planId) (fun d v => { d with planId := some v }) string,
  .of "organization_guid" (·.organizationGuid)
    (fun d v => { d with organizationGuid := some v }) string,
  .of "space_guid" (·.spaceGuid) (fun d v => { d with spaceGuid := some v }) string,
  .of "provision_task_id" (·.provisionTask) (fun d v => { d with provisionTask := some v }) string,
  .of "deprovision_task_id" (·.deprovisionTask)
    (fun d v => { d with deprovisionTask := some v }) (optional string),
  .of "created_at" (·.createdAt) (fun d v => { d with createdAt := some v }) timestamp,
  .of "updated_at" (·.updatedAt) (fun d v => { d with updatedAt := some v }) timestamp]

def reader : Json.Reader Instance := Json.Reader.record ({} : Draft) slots Draft.finish

end Instance

end LedgerBroker
