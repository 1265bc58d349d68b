import LedgerBroker.Api.Command
import LedgerBroker.Broker.Bindings
import LedgerBroker.Broker.Deprovisioning
import LedgerBroker.Broker.Provisioning

set_option autoImplicit false

namespace LedgerBroker.Api

variable {δ ρ : Type}

def health : Json :=
  .obj [("status", .str "healthy"), ("service", .str "fabric-service-broker")]

def ofDeletion : Deletion → Response
  | .deleting token => .ofJson 202 (Operation.mk token).json
  | .removed => .ofJson 200 (.obj [])

def Command.run (s : Services δ ρ) (choice : Nat) (now : Timestamp) :
    Command → Broker.Step δ ρ Response
  | .health => return .ofJson 200 Api.health
  | .catalog => return .ofJson 200 Catalog.json
  | .provision id request accepts =>
    return .ofJson 202 (Operation.mk (← Broker.provision s id request accepts choice now)).json
  | .deprovision id accepts => return ofDeletion (← Broker.deprovision s id accepts now)
  | .lastOperation id operation =>
    return .ofJson 200 (← Broker.lastOperation s id operation).json
  | .bind id bindingId request =>
    return .ofJson 201 (← Broker.bind s id bindingId request now).json
  | .unbind id bindingId => do
    Broker.unbind s id bindingId
    return .ofJson 200 (.obj [])

def perform (s : Services δ ρ) (choice : Nat) (now : Timestamp) (command : Command)
    (b : Broker δ ρ) : Response × Broker δ ρ :=
  match (command.run s choice now).exec b with
  | (.ok response, b) => (response, b)
  | (.error e, b) => (.ofError e, b)

def respond (s : Services δ ρ) (choice : Nat) (now : Timestamp) (request : Request)
    (route : Route) (b : Broker δ ρ) : Response × Broker δ ρ :=
  match Command.ofRequest request route with
  | none => ((Response.ofStatus 405).forAnyone.allowing route.methods, b)
  | some (.error rejection) => (rejection.response.forAnyone, b)
  | some (.ok command) =>
    let (response, b) := perform s choice now command b
    (response.forAnyone, b)

def handle (s : Services δ ρ) (choice : Nat) (now : Timestamp) (request : Request)
    (b : Broker δ ρ) : Response × Broker δ ρ :=
  match Route.ofPath? request.path with
  | none =>
    (if request.method = "OPTIONS" then .permission else (Response.ofStatus 404).forAnyone, b)
  | some route =>
    if request.method = "OPTIONS" then (Response.permission.allowing route.methods, b)
    else
      let (response, b) := respond s choice now request route b
      (if request.method = "HEAD" then response.withoutBody else response, b)

end LedgerBroker.Api
