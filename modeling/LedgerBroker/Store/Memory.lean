import LedgerBroker.Store.Basic

set_option autoImplicit false

namespace LedgerBroker

structure MemoryStore where
  instances : List Instance := []
  bindings : List Binding := []

namespace MemoryStore

def putInstance (s : MemoryStore) (i : Instance) : MemoryStore :=
  { s with instances := s.instances.filter (·.id ≠ i.id) ++ [i] }

def removeInstance (s : MemoryStore) (id : String) : MemoryStore :=
  { s with instances := s.instances.filter (·.id ≠ id) }

def putBinding (s : MemoryStore) (b : Binding) : MemoryStore :=
  { s with bindings := s.bindings.filter (·.id ≠ b.id) ++ [b] }

def removeBinding (s : MemoryStore) (id : String) : MemoryStore :=
  { s with bindings := s.bindings.filter (·.id ≠ id) }

def save (check : Except RecordFault Unit) (put : MemoryStore → MemoryStore) :
    Call StoreError MemoryStore Unit :=
  .of fun s =>
    match check with
    | .error fault => (.error (.ofRecordFault fault), s)
    | .ok () => (.ok (), put s)

def store : Store MemoryStore where
  saveInstance i := save i.validate (·.putInstance i)
  findInstance id := .query fun s => .ok (s.instances.find? (·.id = id))
  instances := .query fun s => .ok s.instances
  deleteInstance id := .update (·.removeInstance id)
  saveBinding b := save b.validate (·.putBinding b)
  findBinding id := .query fun s => .ok (s.bindings.find? (·.id = id))
  deleteBinding id := .update (·.removeBinding id)
  bindings id := .query fun s => .ok (s.bindings.filter (·.instanceId = id))

end MemoryStore

end LedgerBroker
