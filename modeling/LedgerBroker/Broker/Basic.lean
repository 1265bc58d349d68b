import LedgerBroker.Api.Document
import LedgerBroker.Catalog
import LedgerBroker.Director.Basic
import LedgerBroker.Network.Pool
import LedgerBroker.Store.Basic

/-!
A `Step` is what one request does while it holds the broker to itself; calls on the two services
happen in the order in which they are written.
-/

set_option autoImplicit false

namespace LedgerBroker

structure Services (δ ρ : Type) where
  director : Director δ
  store : Store ρ
  details : DirectorDetails

structure Broker (δ ρ : Type) where
  pool : NetworkPool
  director : δ
  records : ρ

namespace Broker

variable {δ ρ : Type}

def start (networks : List String) (director : δ) (records : ρ) : Broker δ ρ :=
  ⟨.new networks, director, records⟩

abbrev Step (δ ρ α : Type) := Call BrokerError (Broker δ ρ) α

namespace Step

variable {α : Type}

def onDirector (call : Call BrokerError δ α) : Step δ ρ α :=
  call.onPart (·.director) (fun b d => { b with director := d }) id

def onStore (rename : String → BrokerError) (call : Call StoreError ρ α) : Step δ ρ α :=
  call.onPart (·.records) (fun b r => { b with records := r }) (rename ·.chain)

def read (call : Call StoreError ρ α) : Step δ ρ α := onStore .dbRead call

def save (call : Call StoreError ρ α) : Step δ ρ α := onStore .dbSave call

def delete (call : Call StoreError ρ α) : Step δ ρ α := onStore .dbDelete call

def onPool (f : NetworkPool → NetworkPool) : Step δ ρ Unit :=
  .update fun b => { b with pool := f b.pool }

def acquireNetwork (choice : Nat) : Step δ ρ String :=
  .of fun b =>
    match b.pool.acquire choice with
    | .error e => (.error e, b)
    | .ok (network, pool) => (.ok network, { b with pool := pool })

def orElseUndo (step : Step δ ρ α) (undo : NetworkPool → NetworkPool) : Step δ ρ α :=
  tryCatch step fun e => do
    onPool undo
    throw e

end Step

end Broker

end LedgerBroker
