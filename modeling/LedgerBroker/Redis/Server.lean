import LedgerBroker.Service

set_option autoImplicit false

namespace LedgerBroker.Redis

inductive Command
  | get (key : String)
  | set (key value : String)
  | del (key : String)
  | sadd (key member : String)
  | srem (key member : String)
  | smembers (key : String)
  deriving DecidableEq, Repr

namespace Command

def words : Command → List String
  | get key => ["GET", key]
  | set key value => ["SET", key, value]
  | del key => ["DEL", key]
  | sadd key member => ["SADD", key, member]
  | srem key member => ["SREM", key, member]
  | smembers key => ["SMEMBERS", key]

def name (c : Command) : String := c.words.headD ""

end Command

inductive Refusal
  | refused (message : String)
  | wrongType
  deriving DecidableEq, Repr

inductive Entry
  | string (value : String)
  | set (members : List String)
  deriving DecidableEq, Repr

/-- What there is under the keys: under each one a string or a set, and no set is empty. -/
structure Keyspace where
  entries : List (String × Entry) := []
  deriving DecidableEq, Repr

namespace Keyspace

def lookup (k : Keyspace) (key : String) : Option Entry := k.entries.lookup key

def remove (k : Keyspace) (key : String) : Keyspace := ⟨k.entries.filter (·.1 ≠ key)⟩

def put (k : Keyspace) (key : String) (entry : Entry) : Keyspace :=
  ⟨(key, entry) :: (k.remove key).entries⟩

def string? (k : Keyspace) (key : String) : Except Refusal (Option String) :=
  match k.lookup key with
  | none => .ok none
  | some (.string value) => .ok (some value)
  | some (.set _) => .error .wrongType

def members (k : Keyspace) (key : String) : Except Refusal (List String) :=
  match k.lookup key with
  | none => .ok []
  | some (.string _) => .error .wrongType
  | some (.set members) => .ok members

def addMember (k : Keyspace) (key member : String) (members : List String) : Keyspace :=
  if members.contains member then k else k.put key (.set (members ++ [member]))

def removeMember (k : Keyspace) (key member : String) (members : List String) : Keyspace :=
  let left := members.filter (· ≠ member)
  if left = [] then k.remove key else k.put key (.set left)

def apply (k : Keyspace) : Command → Except Refusal Keyspace
  | .get key => (k.string? key).map fun _ => k
  | .set key value => .ok (k.put key (.string value))
  | .del key => .ok (k.remove key)
  | .sadd key member => (k.members key).map (k.addMember key member)
  | .srem key member => (k.members key).map (k.removeMember key member)
  | .smembers key => (k.members key).map fun _ => k

end Keyspace

/-- The order in which the members of a set are listed. It may be another one each time. -/
structure Listing where
  order : Nat → List String → List String
  perm : ∀ time members, (order time members).Perm members

def Listing.sorted : Listing :=
  ⟨fun _ members => members.mergeSort, fun _ _ => List.mergeSort_perm _ _⟩

structure Server where
  keys : Keyspace := {}
  listing : Listing := .sorted
  refused : List (String × String) := []
  received : List (List String) := []

namespace Server

def receive (s : Server) (words : List String) : Server := { s with received := s.received ++ [words] }

def refusal? (s : Server) (c : Command) : Option Refusal := (s.refused.lookup c.name).map .refused

def carryOut (s : Server) (c : Command) : Except Refusal Keyspace :=
  match s.refusal? c with
  | some refusal => .error refusal
  | none => s.keys.apply c

def ask {α : Type} (c : Command) (look : Server → Except Refusal α) : Call Refusal Server α :=
  .of fun s => (s.carryOut c >>= fun _ => look s, s.receive c.words)

def get (key : String) : Call Refusal Server (Option String) := ask (.get key) (·.keys.string? key)

def smembers (key : String) : Call Refusal Server (List String) :=
  ask (.smembers key) fun s => (s.keys.members key).map (s.listing.order s.received.length)

/-- Runs commands one after another. One that is refused neither stops nor undoes the others. -/
def runAll : List Command → Call Refusal Server Unit
  | [] => return
  | c :: rest => .of fun s =>
    match s.carryOut c with
    | .ok keys => (runAll rest).exec { s with keys := keys }
    | .error refusal => (.error refusal, ((runAll rest).exec s).2)

def transaction (commands : List Command) : Call Refusal Server Unit :=
  .of fun s =>
    let received := ["MULTI"] :: (commands.map (·.words) ++ [["EXEC"]])
    (runAll commands).exec (received.foldl receive s)

end Server

end LedgerBroker.Redis
