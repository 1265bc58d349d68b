import LedgerBroker.Record.Instance

set_option autoImplicit false

namespace LedgerBroker

namespace Request

structure Draft where
  serviceId : Option String := none
  planId : Option String := none
  organizationGuid : Option String := none
  spaceGuid : Option String := none

open Json.Reader in
def reader : Json.Reader Request :=
  record ({} : Draft) [
    .of "service_id" (·.serviceId) (fun d v => { d with serviceId := some v }) string,
    .of "plan_id" (·.planId) (fun d v => { d with planId := some v }) string,
    .of "organization_guid" (·.organizationGuid)
      (fun d v => { d with organizationGuid := some v }) string,
    .of "space_guid" (·.spaceGuid) (fun d v => { d with spaceGuid := some v }) string]
    fun d => do
      return ⟨← d.serviceId, ← d.planId, d.organizationGuid.getD "", d.spaceGuid.getD ""⟩

end Request

structure BindRequest where
  serviceId : String
  planId : String
  appGuid : Option String
  deriving DecidableEq, Repr

namespace BindRequest

structure Draft where
  serviceId : Option String := none
  planId : Option String := none
  appGuid : Option (Option String) := none

open Json.Reader in
def reader : Json.Reader BindRequest :=
  record ({} : Draft) [
    .of "service_id" (·.serviceId) (fun d v => { d with serviceId := some v }) string,
    .of "plan_id" (·.planId) (fun d v => { d with planId := some v }) string,
    .of "app_guid" (·.appGuid) (fun d v => { d with appGuid := some v }) (optional string)]
    fun d => do return ⟨← d.serviceId, ← d.planId, d.appGuid.getD none⟩

end BindRequest

structure AsyncQuery where
  acceptsIncomplete : Option String
  deriving DecidableEq, Repr

namespace AsyncQuery

def accepts (q : AsyncQuery) : Bool := q.acceptsIncomplete = some "true"

open Json.Reader in
def reader : Json.Reader AsyncQuery :=
  record (none : Option (Option String))
    [.of "accepts_incomplete" id (fun _ v => some v) (optional string)]
    fun d => some ⟨d.getD none⟩

end AsyncQuery

structure PollQuery where
  operation : Option String
  deriving DecidableEq, Repr

open Json.Reader in
def PollQuery.reader : Json.Reader PollQuery :=
  record (none : Option (Option String))
    [.of "operation" id (fun _ v => some v) (optional string)]
    fun d => some ⟨d.getD none⟩

structure Operation where
  token : String
  deriving DecidableEq, Repr

namespace Operation

def json (o : Operation) : Json := .obj [("operation", .str o.token)]

open Json.Reader in
def reader : Json.Reader Operation :=
  record (none : Option String) [.of "operation" id (fun _ v => some v) string] (·.map .mk)

end Operation

structure Credentials where
  peers : List String
  deriving DecidableEq, Repr

namespace Credentials

def peerPort : Nat := 7050

def ofAddresses (ips : List String) : Credentials :=
  ⟨ips.map fun ip => ip ++ ":" ++ Numeral.decimal peerPort⟩

def json (c : Credentials) : Json :=
  .obj [("credentials", .obj [("peers", .arr (c.peers.map .str))])]

open Json.Reader in
def reader : Json.Reader Credentials :=
  record (none : Option Credentials)
    [.of "credentials" id (fun _ v => some v) (record (none : Option (List String))
      [.of "peers" id (fun _ v => some v) (list string)] (·.map .mk))] id

end Credentials

inductive Deletion
  | deleting (token : String)
  | removed
  deriving DecidableEq, Repr

end LedgerBroker
