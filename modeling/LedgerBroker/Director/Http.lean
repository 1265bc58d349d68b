import LedgerBroker.Director.ManifestReader
import LedgerBroker.Director.RetryPolicy
import LedgerBroker.Director.VmListing
import LedgerBroker.Http.Decoding
import LedgerBroker.Http.Exchange
import LedgerBroker.Text.Base64
import LedgerBroker.Url.Parser

set_option autoImplicit false

namespace LedgerBroker

structure Login where
  user : List Char
  password : List Char
  deriving DecidableEq, Repr

def Login.authorization (l : Login) : String :=
  let bytes := Bytes.ofString (String.ofList (l.user ++ ':' :: l.password))
  "Basic " ++ String.ofList (Text.Base64.encode bytes)

structure HttpDirector where
  base : Url
  login : Option Login
  retry : RetryPolicy
  decoding : Http.Decoding

/-- What keeps a listing of machines from being handed over. Where a delay is too long to be worked
out it is the program that stops, and nobody is told anything. -/
inductive Halt
  | failed (e : BrokerError)
  | overflow
  deriving DecidableEq, Repr

instance {σ : Type} : MonadLift (Call BrokerError σ) (Call Halt σ) where
  monadLift := Call.mapError .failed

def Halt.told : Halt → BrokerError
  | failed e => e
  -- A `Director` has no word for a program that stops. No policy comes to this whose waits all fit.
  | overflow => .boshConnect "overflow when multiplying duration by scalar"

namespace HttpDirector

open Http (Exchange Reply)

def login? (url : Url) : Option Login := do
  let info ← (← url.authority).userInfo
  if info.user = [] then none else return ⟨info.user, info.password.getD []⟩

def ofUrl (url : String) (retry : RetryPolicy) (decoding : Http.Decoding := .utf8)
    (toAscii : Url.ToAscii := Url.Domain.toAscii?) : Except BrokerError HttpDirector :=
  match Url.ofString url toAscii with
  | .error fault => .error (.httpRequestCreate fault.message)
  | .ok base => .ok ⟨base.withoutUserInfo, login? base, retry, decoding⟩

variable (c : HttpDirector)

def endpoint (segments : List String) : Except BrokerError Url :=
  match c.base.descend? segments with
  | none => .error (.httpRequestCreate (c.base.toString ++ " cannot take a path"))
  | some url => .ok url

def isReachable (url : Url) : Bool :=
  (url.scheme = "http".toList || url.scheme = "https".toList) &&
  url.authority.any fun a => a.host.text.all fun h => !(['"', '\x60', '\x7b', '\x7d'].contains h)

def isSendable (url : Url) : Bool := isReachable url && url.isShort

def send (method : Http.Method) (url : Url) (content : Option Http.Content) :
    Call BrokerError Exchange Reply :=
  if isSendable url then
    .of fun x =>
      let request := ⟨method, url.withoutFragment, c.login.map (·.authorization), content⟩
      let (answer, x) := (Exchange.send request).exec x
      (answer.mapError fun _ =>
        .boshConnect s!"error sending request for url ({url.toString})", x)
  else throw (.httpRequestCreate s!"builder error for url ({url.toString})")

def quoted (s : String) : String :=
  String.ofList ('"' :: s.toList.flatMap (fun ch =>
    if ch = '"' ∨ ch = '\\' then ['\\', ch] else if ch = '\t' then ['\\', 't'] else [ch]) ++ ['"'])

def lastPart (location : String) : String :=
  String.ofList (location.toList.reverse.takeWhile (· ≠ '/')).reverse

def taskOf (reply : Reply) : Except BrokerError String :=
  let location := (reply.headers.text? "location").getD ""
  let id := lastPart location
  if id = "" then .error (.boshInvalidResponse ("missing task location: " ++ quoted location))
  else .ok id

def submit (method : Http.Method) (url : Url) (content : Option Http.Content) :
    Call BrokerError Exchange String := do
  taskOf (← c.send method url content)

def decode {α : Type} (reader : Json.Reader α) (reply : Reply) : Except BrokerError α :=
  match reply.body.bind fun body => (reader.run body).toOption with
  | none => .error (.boshInvalidResponse "error decoding response body")
  | some a => .ok a

def task (id : String) : Call BrokerError Exchange Task := do
  let reply ← c.send .get (← c.endpoint ["tasks", id]) none
  if reply.status = 404 then throw (.taskNotFound id)
  if reply.status ≠ 200 then throw (.directorStatus reply.status)
  decode Task.reader reply

def createDeployment (m : Manifest) : Call BrokerError Exchange Task := do
  c.task (← c.submit .post (← c.endpoint ["deployments"]) (some ⟨"text/yaml", m.text⟩))

def deleteDeployment (name : String) : Call BrokerError Exchange Task := do
  c.task (← c.submit .delete (← c.endpoint ["deployments", name]) none)

def listed (reply : Reply) : Except BrokerError VmIps :=
  match reply.body with
  | none => .error (.boshInvalidResponse "error decoding response body")
  | some body => .ok (.ofListing (c.decoding reply.headers body))

def rest (attempt : Nat) : Call Halt Exchange Unit :=
  match c.retry.delayAfter attempt with
  | none => return
  | some delay => if delay.Fits then Exchange.wait delay else throw .overflow

def pollListing (deployment : String) (url : Url) (attempt : Nat) : Nat → Call Halt Exchange VmIps
  | 0 => throw (.failed (.maxRetriesExceeded deployment))
  | triesLeft + 1 => do
    let reply ← c.send .get url none
    if reply.status = 200 then c.listed reply
    else if reply.status ≠ 204 then throw (.failed (.directorStatus reply.status))
    else
      c.rest attempt
      pollListing deployment url (attempt + 1) triesLeft

def requestListing (name : String) : Call BrokerError Exchange String := do
  let listing ← c.endpoint ["deployments", name, "vms"]
  c.submit .get (listing.withField "format" "full") none

def awaitListing (name task : String) : Call Halt Exchange VmIps := do
  let output ← c.endpoint ["tasks", task, "output"]
  Exchange.wait c.retry.initialDelay
  c.pollListing name (output.withField "type" "result") 1 c.retry.maxAttempts

def vmIps (name : String) : Call Halt Exchange VmIps := do
  c.awaitListing name (← c.requestListing name)

open Json.Reader in
def namesReader : Json.Reader (List String) :=
  list (record (none : Option String) [.of "name" id (fun _ v => some v) string] id)

open Json.Reader in
def manifestReader : Json.Reader String :=
  record (none : Option String) [.of "manifest" id (fun _ v => some v) string]
    fun d => some (d.getD "")

def deployments : Call BrokerError Exchange (List String) := do
  let reply ← c.send .get (← c.endpoint ["deployments"]) none
  if reply.status ≠ 200 then throw (.directorStatus reply.status)
  decode namesReader reply

def network (name : String) : Call BrokerError Exchange (Option String) := do
  let reply ← c.send .get (← c.endpoint ["deployments", name]) none
  if reply.status = 404 then return none
  if reply.status ≠ 200 then throw (.directorStatus reply.status)
  match Manifest.firstNetwork? (← decode manifestReader reply) with
  | none => throw (.boshInvalidResponse "<yaml>")
  | some network => return network

def director : Director Exchange where
  createDeployment := c.createDeployment
  deleteDeployment := c.deleteDeployment
  task := c.task
  vmIps name := (c.vmIps name).mapError Halt.told
  deployments := c.deployments
  network := c.network

end HttpDirector

end LedgerBroker
