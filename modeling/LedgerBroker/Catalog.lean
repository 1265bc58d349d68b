import LedgerBroker.Json.Basic

set_option autoImplicit false

namespace LedgerBroker

inductive Plan
  | permissionless
  | permissioned
  | sharedPermissioned
  | sharedPermissionless
  deriving DecidableEq, Repr

namespace Catalog

def serviceId : String := "05FC7A18-5B52-4701-A475-5995B79DF2AD"

def serviceName : String := "hyperledger-fabric"

end Catalog

namespace Plan

def all : List Plan := [permissionless, permissioned, sharedPermissioned, sharedPermissionless]

def id : Plan → String
  | permissionless => "15175506-D9F6-4CD8-AA1E-8F0AAFB99C07"
  | permissioned => "4D64F255-927B-4807-A358-15CF06EC687B"
  | sharedPermissioned => "7C1C3178-7551-11E6-8B77-86F30CA893D3"
  | sharedPermissionless => "27083A54-76ED-11E6-8B77-86F30CA893D3"

def resolve? (serviceId planId : String) : Option Plan :=
  if serviceId = Catalog.serviceId then all.find? (·.id = planId) else none

def isPermissioned : Plan → Bool
  | permissioned | sharedPermissioned => true
  | permissionless | sharedPermissionless => false

def isShared : Plan → Bool
  | sharedPermissioned | sharedPermissionless => true
  | permissionless | permissioned => false

def deployment (plan : Plan) (instanceId : String) : String :=
  match plan with
  | permissionless | permissioned => "fabric-" ++ instanceId
  | sharedPermissioned => "fabric-shared-permissioned"
  | sharedPermissionless => "fabric-shared-permissionless"

def kind : Plan → String
  | permissionless => "Permissionless"
  | permissioned => "Permissioned"
  | sharedPermissioned => "SharedPermissioned"
  | sharedPermissionless => "SharedPermissionless"

def name : Plan → String
  | permissionless => "permissionless"
  | permissioned => "permissioned"
  | sharedPermissioned | sharedPermissionless => "shared"

def description : Plan → String
  | permissionless => "Spins up 4 validating nodes in pbft based block chain"
  | permissioned => "Spins up 4 validating nodes in pbft based block chain and membership " ++
      "service. This is permissioned block chain."
  | sharedPermissioned => "Shared 4 node permissioned block chain cluster, all members reuse " ++
      "the one-time commissioned block chain."
  | sharedPermissionless => "Shared 4 node permissionless block chain cluster, all members " ++
      "reuse the one-time commissioned block chain."

def summary : Plan → String
  | permissionless => "Dedicated 4 nodes permissionless block chain cluster"
  | permissioned => "Dedicated 4 nodes permissioned block chain cluster"
  | sharedPermissioned => "shared 4 nodes permissioned block chain cluster"
  | sharedPermissionless => "shared 4 nodes permissionless block chain cluster"

def json (plan : Plan) : Json :=
  .obj [
    ("name", .str plan.name),
    ("id", .str plan.id),
    ("description", .str plan.description),
    ("metadata", .obj [
      ("name", .str plan.name),
      ("description", .str plan.summary),
      ("displayName", .str "Free plan"),
      ("costs", .arr [.str "free"])]),
    ("free", .bool true)]

end Plan

namespace Catalog

def json : Json :=
  .obj [("services", .arr [.obj [
    ("name", .str serviceName),
    ("id", .str serviceId),
    ("description", .str "Hyperledger fabric block chain service"),
    ("tags", .arr [.str "blockchain"]),
    ("bindable", .bool true),
    ("metadata", .obj [
      ("name", .str serviceName),
      ("description", .str "Permissioned block chain implementation"),
      ("displayName", .str "Hyperledger fabric block chain")]),
    ("plan_updateable", .bool false),
    ("plans", .arr (Plan.all.map Plan.json))]])]

end Catalog

end LedgerBroker
