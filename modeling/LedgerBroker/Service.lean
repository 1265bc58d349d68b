set_option autoImplicit false

namespace LedgerBroker

abbrev Call (ε σ α : Type) := ExceptT ε (StateM σ) α

namespace Call

def of {ε σ α : Type} (f : σ → Except ε α × σ) : Call ε σ α := ExceptT.mk fun s => f s

def exec {ε σ α : Type} (call : Call ε σ α) (s : σ) : Except ε α × σ := StateT.run call.run s

def query {ε σ α : Type} (f : σ → Except ε α) : Call ε σ α := of fun s => (f s, s)

def update {ε σ : Type} (f : σ → σ) : Call ε σ Unit := of fun s => (.ok (), f s)

def onPart {ε ε' σ τ α : Type} (get : τ → σ) (set : τ → σ → τ) (rename : ε → ε')
    (call : Call ε σ α) : Call ε' τ α :=
  of fun t =>
    let (result, s) := call.exec (get t)
    (result.mapError rename, set t s)

def mapError {ε ε' σ α : Type} (rename : ε → ε') (call : Call ε σ α) : Call ε' σ α :=
  onPart id (fun _ s => s) rename call

end Call

end LedgerBroker
