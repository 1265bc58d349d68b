import LedgerBroker.BrokerError
import LedgerBroker.Record.Instance

set_option autoImplicit false

namespace LedgerBroker

structure NetworkPool where
  configured : List String
  available : List String
  orphans : List (String × String)
  deriving DecidableEq, Repr

namespace NetworkPool

def new (names : List String) : NetworkPool := ⟨names.eraseDups, names.eraseDups, []⟩

def capacity (p : NetworkPool) : Nat := p.configured.length

def isAvailable (p : NetworkPool) (name : String) : Bool := p.available.contains name

def isOrphaned (p : NetworkPool) (deployment : String) : Bool :=
  p.orphans.any (·.1 = deployment)

def isHeld (p : NetworkPool) (name : String) : Bool := p.orphans.any (·.2 = name)

/-- Takes a free network out of the pool. Any free one will do: `choice` picks it. -/
def acquire (p : NetworkPool) (choice : Nat) : Except BrokerError (String × NetworkPool) :=
  match p.available[choice % p.available.length]? with
  | none => .error .networkUnavailable
  | some name => .ok (name, { p with available := p.available.filter (· ≠ name) })

/-- Puts a network back. One that is free, held by an orphan or not configured is left alone. -/
def release (p : NetworkPool) (name : String) : NetworkPool :=
  if p.configured.contains name && !p.isHeld name && !p.isAvailable name then
    { p with available := p.available ++ [name] }
  else p

def quarantine (p : NetworkPool) (deployment network : String) : NetworkPool :=
  { p with
    available := p.available.filter (· ≠ network)
    orphans := p.orphans.filter (·.1 ≠ deployment) ++ [(deployment, network)] }

def refresh (p : NetworkPool) (instances : List Instance) (unrecorded : List (String × String)) :
    NetworkPool :=
  let orphans := unrecorded.filter fun (_, network) => p.configured.contains network
  { p with
    orphans := orphans
    available := p.configured.filter fun name =>
      !instances.any (·.network = name) && !orphans.any (·.2 = name) }

end NetworkPool

end LedgerBroker
