import LedgerBroker.Api.MediaType
import LedgerBroker.Api.Message
import LedgerBroker.Api.Query
import LedgerBroker.Api.Route

set_option autoImplicit false

namespace LedgerBroker.Api

inductive Rejection
  | unreadableId
  | unreadableQuery
  | notJson
  | bodyTooLarge
  | malformedBody
  | unexpectedBody
  deriving DecidableEq, Repr

namespace Rejection

def status : Rejection → Nat
  | unreadableId | unreadableQuery | malformedBody => 400
  | notJson => 415
  | bodyTooLarge => 413
  | unexpectedBody => 422

def message : Rejection → String
  | unreadableId => "Invalid URL"
  | unreadableQuery => "Failed to deserialize query string"
  | notJson => "Expected request with \x60Content-Type: application/json\x60"
  | bodyTooLarge => "Failed to buffer the request body"
  | malformedBody => "Failed to parse the request body as JSON"
  | unexpectedBody => "Failed to deserialize the JSON body into the target type"

def response (r : Rejection) : Response := .ofText r.status r.message

end Rejection

def greatestBody : Nat := 2097152

def readId (segment : List Char) : Except Rejection String :=
  match Route.id? segment with
  | none => .error .unreadableId
  | some id => .ok id

def readQuery {α : Type} (read? : List Char → Option α) (query : List Char) : Except Rejection α :=
  match read? query with
  | none => .error .unreadableQuery
  | some a => .ok a

def readBody {α : Type} (reader : Json.Reader α) (request : Request) : Except Rejection α :=
  if !(request.headers.text? "content-type").any MediaType.isJson then .error .notJson
  else if greatestBody < request.body.length then .error .bodyTooLarge
  else
    match reader.run request.body with
    | .error .malformed => .error .malformedBody
    | .error .mismatch => .error .unexpectedBody
    | .ok a => .ok a

inductive Command
  | health
  | catalog
  | provision (id : String) (request : LedgerBroker.Request) (acceptsIncomplete : Bool)
  | deprovision (id : String) (acceptsIncomplete : Bool)
  | lastOperation (id : String) (operation : Option String)
  | bind (id bindingId : String) (request : BindRequest)
  | unbind (id bindingId : String)
  deriving DecidableEq, Repr

namespace Command

def ofGet (request : Request) : Route → Option (Except Rejection Command)
  | .health => some (.ok health)
  | .catalog => some (.ok catalog)
  | .lastOperation segment => some do
    let id ← readId segment
    let query ← readQuery pollQuery? request.query
    return lastOperation id query.operation
  | .instance_ _ | .binding _ _ => none

def ofPut (request : Request) : Route → Option (Except Rejection Command)
  | .instance_ segment => some do
    let id ← readId segment
    let query ← readQuery asyncQuery? request.query
    let body ← readBody LedgerBroker.Request.reader request
    return provision id body query.accepts
  | .binding segment bindingSegment => some do
    let id ← readId segment
    let bindingId ← readId bindingSegment
    let body ← readBody BindRequest.reader request
    return bind id bindingId body
  | .health | .catalog | .lastOperation _ => none

def ofDelete (request : Request) : Route → Option (Except Rejection Command)
  | .instance_ segment => some do
    let id ← readId segment
    let query ← readQuery asyncQuery? request.query
    return deprovision id query.accepts
  | .binding segment bindingSegment => some do
    let id ← readId segment
    let bindingId ← readId bindingSegment
    return unbind id bindingId
  | .health | .catalog | .lastOperation _ => none

def ofRequest (request : Request) (route : Route) : Option (Except Rejection Command) :=
  if request.method = "GET" ∨ request.method = "HEAD" then ofGet request route
  else if request.method = "PUT" then ofPut request route
  else if request.method = "DELETE" then ofDelete request route
  else none

end Command

end LedgerBroker.Api
