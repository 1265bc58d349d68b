import LedgerBroker.Json.Basic

set_option autoImplicit false

namespace LedgerBroker

inductive BrokerError
  | asyncRequired
  | invalidServicePlan (serviceId planId : String)
  | instanceAlreadyExists (id : String)
  | bindingAlreadyExists (id : String)
  | networkUnavailable
  | manifestGeneration (cause : String)
  | httpRequestCreate (cause : String)
  | boshConnect (cause : String)
  | boshInvalidResponse (cause : String)
  | taskNotFound (id : String)
  | directorStatus (status : Nat)
  | maxRetriesExceeded (deployment : String)
  | dbRead (cause : String)
  | dbSave (cause : String)
  | dbDelete (cause : String)
  | provisionInFlight (id : String)
  | deprovisionInFlight (id : String)
  | bindingsExist (id : String)
  | missingOperation
  | instanceNotFound (id : String)
  | instanceGone (id : String)
  | bindingGone (id : String)
  deriving DecidableEq, Repr

namespace BrokerError

def kind : BrokerError → String
  | asyncRequired => "AsyncRequired"
  | invalidServicePlan _ _ => "InvalidServicePlan"
  | instanceAlreadyExists _ => "InstanceAlreadyExists"
  | bindingAlreadyExists _ => "BindingAlreadyExists"
  | networkUnavailable => "NetworkUnavailable"
  | manifestGeneration _ => "ManifestGeneration"
  | httpRequestCreate _ => "HttpRequestCreate"
  | boshConnect _ => "BoshConnect"
  | boshInvalidResponse _ => "BoshInvalidResponse"
  | taskNotFound _ => "TaskNotFound"
  | directorStatus _ => "DirectorStatus"
  | maxRetriesExceeded _ => "MaxRetriesExceeded"
  | dbRead _ => "DbRead"
  | dbSave _ => "DbSave"
  | dbDelete _ => "DbDelete"
  | provisionInFlight _ => "ProvisionInFlight"
  | deprovisionInFlight _ => "DeprovisionInFlight"
  | bindingsExist _ => "BindingsExist"
  | missingOperation => "MissingOperation"
  | instanceNotFound _ => "InstanceNotFound"
  | instanceGone _ => "InstanceGone"
  | bindingGone _ => "BindingGone"

def message : BrokerError → String
  | asyncRequired => "client does not accept asynchronous operations"
  | invalidServicePlan serviceId planId => s!"unknown service {serviceId} or plan {planId}"
  | instanceAlreadyExists id => s!"service instance already exists: {id}"
  | bindingAlreadyExists id => s!"service binding already exists: {id}"
  | networkUnavailable => "no networks available for deployments"
  | manifestGeneration cause => s!"manifest generation failed: {cause}"
  | httpRequestCreate cause => s!"unable to create http request: {cause}"
  | boshConnect cause => s!"unable to connect to director: {cause}"
  | boshInvalidResponse cause => s!"invalid response from director: {cause}"
  | taskNotFound id => s!"director task not found: {id}"
  | directorStatus status => "director returned status " ++ Numeral.decimal status
  | maxRetriesExceeded deployment =>
    s!"max retries exceeded while fetching VM details for {deployment}"
  | dbRead cause => s!"database read failed: {cause}"
  | dbSave cause => s!"database save failed: {cause}"
  | dbDelete cause => s!"database delete failed: {cause}"
  | provisionInFlight id => s!"service instance is still being deployed: {id}"
  | deprovisionInFlight id => s!"deployment is being deleted: {id}"
  | bindingsExist id => s!"service instance {id} has bindings"
  | missingOperation => "no operation parameter specified"
  | instanceNotFound id => s!"service instance not found: {id}"
  | instanceGone id => s!"service instance gone: {id}"
  | bindingGone id => s!"service binding gone: {id}"

def status : BrokerError → Nat
  | asyncRequired => 422
  | invalidServicePlan _ _ | instanceAlreadyExists _ | provisionInFlight _
  | deprovisionInFlight _ | bindingsExist _ | missingOperation | taskNotFound _ => 400
  | instanceNotFound _ => 404
  | bindingAlreadyExists _ => 409
  | instanceGone _ | bindingGone _ => 410
  | networkUnavailable => 503
  | manifestGeneration _ | httpRequestCreate _ | boshConnect _ | boshInvalidResponse _
  | directorStatus _ | maxRetriesExceeded _ | dbRead _ | dbSave _ | dbDelete _ => 500

def report : BrokerError → Option (String × String)
  | asyncRequired => some ("AsyncRequired",
      "This service plan requires client support for asynchronous service operations.")
  | invalidServicePlan _ _ => some ("InvalidServicePlan", "Unknown service or plan id")
  | instanceAlreadyExists _ | bindingAlreadyExists _ =>
    some ("ResourceAlreadyExists", "Resource already exists")
  | networkUnavailable => some ("NetworkUnavailable", "No networks available for deployments")
  | manifestGeneration _ =>
    some ("ManifestGeneration", "Unable to generate manifest for deployment")
  | httpRequestCreate _ => some ("HttpRequestCreate", "Unable to create an http request")
  | boshConnect _ => some ("BoshConnect", "Unable to connect to Bosh")
  | boshInvalidResponse _ | directorStatus _ =>
    some ("BoshInvalidResponse", "Invalid response from Bosh")
  | taskNotFound _ => some ("InvalidOperation", "Invalid operation parameter specified")
  | maxRetriesExceeded _ =>
    some ("MaxRetriesExceeded", "Max retries exceeded in getting deployment details from Bosh")
  | dbRead _ => some ("DBRead", "Unable to read from DB")
  | dbSave _ => some ("DBSave", "Unable to save to DB")
  | dbDelete _ => some ("DBDelete", "Unable to delete from DB")
  | provisionInFlight _ => some ("ProvisionInFlight", "Service instance is still being deployed")
  | deprovisionInFlight _ => some ("DeprovisionInFlight", "Deployment is still being deleted")
  | bindingsExist _ =>
    some ("BindingExist", "Service instance cannot be deleted as bindings exist")
  | missingOperation => some ("MissingOperation", "No operation parameter specified")
  | instanceNotFound _ | instanceGone _ | bindingGone _ => none

def code (e : BrokerError) : Option String := e.report.map (·.1)

def description (e : BrokerError) : Option String := e.report.map (·.2)

def body (e : BrokerError) : Json :=
  .obj (Json.optionalField "error" e.code ++ Json.optionalField "description" e.description)

end BrokerError

end LedgerBroker
