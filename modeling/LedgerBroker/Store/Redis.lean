import LedgerBroker.Redis.Server
import LedgerBroker.Store.Basic

/-!
Each record is a string under a key of its own; the ids of all instances are in one set, and the
ids of an instance's bindings in one set for each instance. A record and its place in a set change
in one transaction.
-/

set_option autoImplicit false

namespace LedgerBroker.RedisStore

open Redis (Server Command)

def instancesKey : String := "instances:all"

def instanceKey (id : String) : String := "instance:" ++ id

def bindingKey (id : String) : String := "binding:" ++ id

def bindingsKey (instanceId : String) : String := "instance_bindings:" ++ instanceId

def ofRefusal : Redis.Refusal → StoreError
  | .refused message => ⟨"An error was signalled by the server - ResponseError: " ++ message, []⟩
  | .wrongType => ⟨"WRONGTYPE: Operation against a key holding the wrong kind of value", []⟩

def serverCall {α : Type} (call : Call Redis.Refusal Server α) : Call StoreError Server α :=
  call.onPart id (fun _ s => s) ofRefusal

def transaction (commands : List Command) : Call StoreError Server Unit :=
  serverCall (Server.transaction commands)

def text (record : Json) : String := (Bytes.text? record.write).getD ""

def find {α : Type} (reader : Json.Reader α) (key : String) : Call StoreError Server (Option α) := do
  match ← serverCall (Server.get key) with
  | none => return none
  | some stored =>
    match reader.run (Bytes.ofString stored) with
    | .error _ => throw ⟨"Failed to deserialize " ++ key, []⟩
    | .ok record => return some record

def findInstance (id : String) : Call StoreError Server (Option Instance) :=
  find Instance.reader (instanceKey id)

def findBinding (id : String) : Call StoreError Server (Option Binding) :=
  find Binding.reader (bindingKey id)

def findAll {α : Type} (find : String → Call StoreError Server (Option α)) :
    List String → Call StoreError Server (List α)
  | [] => return []
  | id :: ids => do
    let record ← find id
    let others ← findAll find ids
    return record.toList ++ others

def check (validity : Except RecordFault Unit) : Call StoreError Server Unit :=
  .query fun _ => validity.mapError .ofRecordFault

def saveInstance (i : Instance) : Call StoreError Server Unit := do
  check i.validate
  transaction [.set (instanceKey i.id) (text i.json), .sadd instancesKey i.id]

def instances : Call StoreError Server (List Instance) := do
  findAll findInstance (← serverCall (Server.smembers instancesKey))

def deleteInstance (id : String) : Call StoreError Server Unit :=
  transaction [.del (instanceKey id), .srem instancesKey id]

def saveBinding (b : Binding) : Call StoreError Server Unit := do
  check b.validate
  transaction [.set (bindingKey b.id) (text b.json), .sadd (bindingsKey b.instanceId) b.id]

def deleteBinding (id : String) : Call StoreError Server Unit := do
  let some b := ← findBinding id | return
  transaction [.del (bindingKey id), .srem (bindingsKey b.instanceId) id]

def bindings (instanceId : String) : Call StoreError Server (List Binding) := do
  findAll findBinding (← serverCall (Server.smembers (bindingsKey instanceId)))

def store : Store Server where
  saveInstance := saveInstance
  findInstance := findInstance
  instances := instances
  deleteInstance := deleteInstance
  saveBinding := saveBinding
  findBinding := findBinding
  deleteBinding := deleteBinding
  bindings := bindings

end LedgerBroker.RedisStore
