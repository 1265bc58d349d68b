import LedgerBroker.Api.Router
import LedgerBroker.Director.Simulated
import LedgerBroker.Proofs.Call
import LedgerBroker.Proofs.Membership
import LedgerBroker.Proofs.PercentText
import LedgerBroker.Proofs.Run
import LedgerBroker.Store.Memory

set_option autoImplicit false

namespace LedgerBroker

namespace Url

end Url

namespace Api

open PercentEncoding (Spells)

namespace Route

def isPlain (c : Char) : Bool := !(['/', '?', '#'].contains c)

def SpellsId (id : String) (segment : List Char) : Prop :=
  Spells isPlain (Bytes.ofString id) segment

def words : Route → List (List Char)
  | health => ["health".toList]
  | catalog => ["v2".toList, "catalog".toList]
  | instance_ id => ["v2".toList, "service_instances".toList, id]
  | lastOperation id => ["v2".toList, "service_instances".toList, id, "last_operation".toList]
  | binding id bindingId =>
    ["v2".toList, "service_instances".toList, id, "service_bindings".toList, bindingId]

def path (route : Route) : List Char := (Url.Path.segments route.words).text

def ids : Route → List (List Char)
  | health | catalog => []
  | instance_ id | lastOperation id => [id]
  | binding id bindingId => [id, bindingId]

theorem SpellsId.single {id : String} {segment : List Char} (spells : SpellsId id segment) :
    '/' ∉ segment :=
  spells.not_mem rfl rfl (by decide)

theorem words_single {route : Route} (single : ∀ segment ∈ route.ids, '/' ∉ segment) :
    ∀ word ∈ route.words, '/' ∉ word := by
  have fixed : '/' ∉ "v2".toList ∧ '/' ∉ "service_instances".toList ∧
      '/' ∉ "last_operation".toList ∧ '/' ∉ "service_bindings".toList := by decide
  cases route with
  | health | catalog => decide
  | instance_ id => simp_all [words, ids]
  | lastOperation id => simp_all [words, ids]
  | binding id bindingId => simp_all [words, ids]

end Route

def isPlainInQuery (c : Char) : Bool := !(['&', '=', '+', '#'].contains c)

def SpellsPart (part : String) (cs : List Char) : Prop :=
  Spells isPlainInQuery (Bytes.ofString part) cs

/-- The query asks for the fields, each a name and a value, in order. -/
inductive Asks : List (String × String) → List Char → Prop
  | nothing : Asks [] []
  | only {name value : String} {n v : List Char} (named : SpellsPart name n)
      (valued : SpellsPart value v) : Asks [(name, value)] (n ++ '=' :: v)
  | more {name value : String} {n v : List Char} {fields : List (String × String)}
      {query : List Char} (named : SpellsPart name n) (valued : SpellsPart value v)
      (rest : Asks fields query) : Asks ((name, value) :: fields) (n ++ '=' :: v ++ '&' :: query)

theorem SpellsPart.not_mem {part : String} {cs : List Char} (spells : SpellsPart part cs) :
    '&' ∉ cs ∧ '=' ∉ cs ∧ '+' ∉ cs :=
  ⟨Spells.not_mem spells rfl rfl (by decide), Spells.not_mem spells rfl rfl (by decide),
    Spells.not_mem spells rfl rfl (by decide)⟩

theorem SpellsPart.spelled {part : String} {cs : List Char} (spells : SpellsPart part cs) :
    spelled cs = part := by
  have plain : cs.map (fun c => if c = '+' then ' ' else c) = cs := by
    refine (List.map_congr_left fun c mem => if_neg ?_).trans cs.map_id
    rintro rfl
    exact spells.not_mem.2.2 mem
  simp only [Api.spelled, plain, Spells.decode spells, Text.readUtf8_ofString,
    String.ofList_toList]

section Field

variable {name value : String} {n v : List Char} (named : SpellsPart name n)
  (valued : SpellsPart value v)

include named valued

end Field

/-- The body of the request is a document within bounds that is read as `a`. -/
structure Carries {α : Type} (reader : Json.Reader α) (r : Request) (a : α) : Prop where
  typed : (r.headers.text? "content-type").any MediaType.isJson
  bounded : r.body.length ≤ greatestBody
  reads : reader.run r.body = .ok a

namespace Command

variable {r : Request} {route : Route}

end Command

section Operations

variable {δ ρ α : Type}

def answer (onSuccess : α → Response) : Except BrokerError α → Response
  | .ok a => (onSuccess a).forAnyone
  | .error e => (Response.ofJson e.status e.body).forAnyone

def accepted (token : String) : Response := .ofJson 202 (.obj [("operation", .str token)])

def done : Response := .ofJson 200 (.obj [])

variable (s : Services δ ρ) (choice : Nat) (now : Timestamp) (b : Broker δ ρ)

variable {s choice now b}

end Operations

section Unread

variable {ε α β : Type} {x : Except ε α}

end Unread

section Rejected

variable {r : Request} {segment bindingSegment : List Char}

end Rejected

end Api

end LedgerBroker
