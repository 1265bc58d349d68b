import LedgerBroker.Proofs.Lockstep
import LedgerBroker.Proofs.SimulatedDirector
import Mathlib.Logic.Equiv.Basic

set_option autoImplicit false

namespace LedgerBroker

variable {π ρ : Equiv.Perm String} {networks : List String}

def Permutes (networks : List String) (π : Equiv.Perm String) : Prop :=
  ∀ n, n ∉ networks → π n = n

def Unmixed (networks : List String) : Prop := ∀ n ∈ networks, ∀ m ∈ networks, n = "" → m = ""

namespace Permutes

theorem refl (networks : List String) : Permutes networks (Equiv.refl String) := fun _ _ => rfl

theorem mem_iff (permutes : Permutes networks π) {n : String} : π n ∈ networks ↔ n ∈ networks := by
  constructor
  · intro mem
    by_contra absent
    exact absent (permutes n absent ▸ mem)
  · intro mem
    by_contra absent
    -- What is renamed into a name that stays is that name.
    rw [π.injective (permutes (π n) absent)] at absent
    exact absent mem

theorem trans (first : Permutes networks π) (second : Permutes networks ρ) :
    Permutes networks (π.trans ρ) := by
  intro n absent
  rw [Equiv.trans_apply, first n absent, second n absent]

theorem symm (permutes : Permutes networks π) : Permutes networks π.symm := by
  intro n absent
  rw [Equiv.symm_apply_eq, permutes n absent]

theorem swap {m n : String} (mem : m ∈ networks) (mem' : n ∈ networks) :
    Permutes networks (Equiv.swap m n) := by
  intro k absent
  refine Equiv.swap_apply_of_ne_of_ne ?_ ?_ <;> rintro rfl
  · exact absent mem
  · exact absent mem'

theorem empty (permutes : Permutes networks π) (unmixed : Unmixed networks) : π "" = "" := by
  by_cases mem : "" ∈ networks
  · exact unmixed "" mem (π "") (permutes.mem_iff.mpr mem) rfl
  · exact permutes "" mem

end Permutes

namespace NetworkPool

structure Renames (π : Equiv.Perm String) (p q : NetworkPool) : Prop where
  configured : p.configured = q.configured
  available : ∀ n, π n ∈ p.available ↔ n ∈ q.available
  orphans : p.orphans = q.orphans.map fun o => (o.1, π o.2)

namespace Renames

variable {p q : NetworkPool} {n : String}

theorem new (permutes : Permutes (NetworkPool.new networks).configured π) :
    (NetworkPool.new networks).Renames π (NetworkPool.new networks) :=
  ⟨rfl, fun _ => permutes.mem_iff, rfl⟩

theorem isOrphaned (h : p.Renames π q) (deployment : String) :
    p.isOrphaned deployment = q.isOrphaned deployment := by
  simp [NetworkPool.isOrphaned, h.orphans, List.any_map, Function.comp_def]

theorem isHeld (h : p.Renames π q) : p.isHeld (π n) = q.isHeld n := by
  simp [NetworkPool.isHeld, h.orphans, List.any_map, Function.comp_def]

theorem take (h : p.Renames π q) (n : String) :
    Renames π { p with available := p.available.filter (· ≠ π n) }
      { q with available := q.available.filter (· ≠ n) } :=
  ⟨h.configured, fun m => by simp [h.available], h.orphans⟩

theorem release (h : p.Renames π q) (permutes : Permutes q.configured π) :
    (p.release (π n)).Renames π (q.release n) where
  configured := by simp [h.configured]
  available m := by
    simp only [mem_available_release, h.available, h.configured, h.isHeld, permutes.mem_iff,
      EmbeddingLike.apply_eq_iff_eq]
  orphans := by simp [h.orphans]

theorem quarantine (h : p.Renames π q) (deployment : String) :
    (p.quarantine deployment (π n)).Renames π (q.quarantine deployment n) where
  configured := h.configured
  available m := by simp [h.available]
  orphans := by
    simp [NetworkPool.quarantine, h.orphans, List.filter_map, Function.comp_def]

theorem refresh (h : p.Renames π q) (permutes : Permutes q.configured π)
    {instances instances' : List Instance} {unrecorded unrecorded' : List (String × String)}
    (recorded : ∀ n, (∀ i ∈ instances, i.network ≠ π n) ↔ ∀ i ∈ instances', i.network ≠ n)
    (unknown : unrecorded = unrecorded'.map fun o => (o.1, π o.2)) :
    (p.refresh instances unrecorded).Renames π (q.refresh instances' unrecorded') := by
  have orphans : (p.refresh instances unrecorded).orphans =
      (q.refresh instances' unrecorded').orphans.map fun o => (o.1, π o.2) := by
    simp [NetworkPool.refresh, unknown, h.configured, List.filter_map, Function.comp_def,
      permutes.mem_iff]
  refine ⟨h.configured, fun n => ?_, orphans⟩
  simp only [mem_available_refresh, orphans, h.configured, permutes.mem_iff, recorded,
    List.forall_mem_map, ne_eq, EmbeddingLike.apply_eq_iff_eq]

end Renames

end NetworkPool

namespace SimulatedDirector

open Call (Lockstep)

structure Renames (π : Equiv.Perm String) (s t : SimulatedDirector) : Prop where
  rest : s = { t with networks := s.networks }
  network : ∀ name, s.network? name = (t.network? name).map π

namespace Renames

variable {s t : SimulatedDirector}

theorem startTask (h : s.Renames π t) (description : String) :
    (s.startTask description).1 = (t.startTask description).1 ∧
      (s.startTask description).2.Renames π (t.startTask description).2 := by
  obtain ⟨rest, network⟩ := h
  rw [rest]
  exact ⟨rfl, rfl, network⟩

theorem removeDeployment (h : s.Renames π t) (name : String) :
    (s.removeDeployment name).Renames π (t.removeDeployment name) where
  rest := by
    rw [h.rest]
    rfl
  network other := by
    rw [network_removeDeployment, network_removeDeployment, h.network]
    split <;> rfl

theorem addDeployment (h : s.Renames π t) {m m' : Manifest} {n : String} (name : m.name = m'.name)
    (placed : m.networkName = some (π n)) (placed' : m'.networkName = some n) :
    (s.addDeployment m).Renames π (t.addDeployment m') where
  rest := by
    rw [h.rest]
    simp [SimulatedDirector.addDeployment, hasDeployment, name]
  network other := by
    rw [network_addDeployment placed, network_addDeployment placed', h.network, name]
    split <;> rfl

theorem setTaskState (h : s.Renames π t) (token : String) (state : TaskState) :
    (s.setTaskState token state).Renames π (t.setTaskState token state) := by
  obtain ⟨rest, network⟩ := h
  rw [rest]
  unfold SimulatedDirector.setTaskState
  split
  · exact ⟨rfl, network⟩
  · exact ⟨rfl, network⟩

end Renames

variable {v : Director.Outages SimulatedDirector}

abbrev Alongside {α β : Type} (π : Equiv.Perm String) (R : α → β → Prop)
    (call : Call BrokerError (Director.Outages SimulatedDirector) α)
    (v : Director.Outages SimulatedDirector)
    (call' : Call BrokerError (Director.Outages SimulatedDirector) β) : Prop :=
  Lockstep (Unreliable.Both (Renames π)) (Unreliable.Both (Renames π)) R call v call'

theorem createDeployment_alongside {m m' : Manifest} {n : String} (name : m.name = m'.name)
    (placed : m.networkName = some (π n)) (placed' : m'.networkName = some n) :
    Alongside π Eq (faulty.createDeployment m) v (faulty.createDeployment m') := by
  refine Unreliable.guard_lockstep _ (fun fault => .error fault) fun s renames => ?_
  -- Both Directors fail creations, or neither; and the task they start has one number.
  have off : s.failsCreations = v.service.failsCreations := by rw [renames.rest]
  simp only [director, Call.exec_of, off, name]
  split
  next => exact ⟨.error _, renames⟩
  next =>
    have started := (renames.addDeployment name placed placed').startTask
      ("create deployment " ++ m'.name)
    exact ⟨.ok started.1, started.2⟩

theorem deleteDeployment_alongside (name : String) :
    Alongside π Eq (faulty.deleteDeployment name) v (faulty.deleteDeployment name) := by
  refine Unreliable.guard_lockstep _ (fun fault => .error fault) fun s renames => ?_
  have removed := renames.removeDeployment name
  have counted : Renames π { s.removeDeployment name with deleted := s.deleted + 1 }
      { v.service.removeDeployment name with deleted := v.service.deleted + 1 } :=
    ⟨by rw [removed.rest, renames.rest], removed.network⟩
  have started := counted.startTask ("delete deployment " ++ name)
  exact ⟨.ok started.1, started.2⟩

theorem query_alongside {α β : Type} {R : α → β → Prop} (kind : Director.CallKind)
    {f : SimulatedDirector → Except BrokerError α} {f' : SimulatedDirector → Except BrokerError β}
    (alike : ∀ s t, Renames π s t → Alike R (f s) (f' t)) :
    Alongside π R (Unreliable.guard kind .error (.query f)) v
      (Unreliable.guard kind .error (.query f')) :=
  Unreliable.guard_lockstep _ (fun fault => .error fault) fun s renames =>
    ⟨alike s _ renames, renames⟩

theorem task_alongside (token : String) :
    Alongside π Eq (faulty.task token) v (faulty.task token) := by
  refine query_alongside _ fun s t renames => ?_
  rw [renames.rest]
  simp only [findTask?]
  split
  · exact .error _
  · exact .ok rfl

theorem vmIps_alongside (name : String) :
    Alongside π Eq (faulty.vmIps name) v (faulty.vmIps name) := by
  refine query_alongside _ fun s t renames => .ok ?_
  rw [renames.rest]
  rfl

theorem deployments_alongside : Alongside π Eq faulty.deployments v faulty.deployments := by
  refine query_alongside _ fun s t renames => .ok ?_
  rw [renames.rest]

theorem network_alongside (name : String) :
    Alongside π (fun told told' => told = told'.map π) (faulty.network name) v
      (faulty.network name) :=
  query_alongside _ fun _ _ renames => .ok (renames.network name)

end SimulatedDirector

namespace Instance

def rename (π : Equiv.Perm String) (i : Instance) : Instance := { i with network := π i.network }

variable {i : Instance}

@[simp] theorem id_rename : (i.rename π).id = i.id := rfl

@[simp] theorem deployment_rename : (i.rename π).deployment = i.deployment := rfl

@[simp] theorem network_rename : (i.rename π).network = π i.network := rfl

@[simp] theorem provisionTask_rename : (i.rename π).provisionTask = i.provisionTask := rfl

@[simp] theorem deprovisionTask_rename : (i.rename π).deprovisionTask = i.deprovisionTask := rfl

@[simp] theorem isDeprovisioning_rename : (i.rename π).isDeprovisioning = i.isDeprovisioning := rfl

theorem validate_rename (named : π "" = "") : (i.rename π).validate = i.validate := by
  -- Of all the checks only the one on the network could tell the difference.
  have same : π i.network = "" ↔ i.network = "" := by
    conv_lhs => rw [← named]
    exact π.apply_eq_iff_eq
  simp only [validate, network_rename, same]
  rfl

end Instance

namespace MemoryStore

structure Listing where
  order : Nat → List Instance → List Instance
  perm : ∀ time instances, (order time instances).Perm instances

def Listing.stored : Listing := ⟨fun _ instances => instances, fun _ _ => .refl _⟩

def rename (π : Equiv.Perm String) (m : MemoryStore) : MemoryStore :=
  { m with instances := m.instances.map (·.rename π) }

variable {m : MemoryStore}

theorem putInstance_rename (i : Instance) :
    (m.rename π).putInstance (i.rename π) = (m.putInstance i).rename π := by
  simp only [putInstance, rename, List.filter_map, List.map_append]
  rfl

theorem removeInstance_rename (id : String) :
    (m.rename π).removeInstance id = (m.removeInstance id).rename π := by
  simp only [removeInstance, rename, List.filter_map]
  rfl

end MemoryStore

/-- A store in memory that lists its instances in any order. -/
structure ShuffledStore where
  records : MemoryStore := {}
  listings : Nat := 0

namespace ShuffledStore

open Call (Lockstep)

def onRecords {α : Type} (call : Call StoreError MemoryStore α) : Call StoreError ShuffledStore α :=
  call.onPart (·.records) (fun s m => { s with records := m }) id

def store (listing : MemoryStore.Listing) : Store ShuffledStore where
  saveInstance i := onRecords (MemoryStore.store.saveInstance i)
  findInstance id := onRecords (MemoryStore.store.findInstance id)
  instances := .of fun s =>
    (.ok (listing.order s.listings s.records.instances), { s with listings := s.listings + 1 })
  deleteInstance id := onRecords (MemoryStore.store.deleteInstance id)
  saveBinding b := onRecords (MemoryStore.store.saveBinding b)
  findBinding id := onRecords (MemoryStore.store.findBinding id)
  deleteBinding id := onRecords (MemoryStore.store.deleteBinding id)
  bindings id := onRecords (MemoryStore.store.bindings id)

def Renames (π : Equiv.Perm String) (s : ShuffledStore) (m : MemoryStore) : Prop :=
  s.records = m.rename π

abbrev Alongside {α β : Type} (π : Equiv.Perm String) (R : α → β → Prop)
    (call : Call StoreError (Store.Outages ShuffledStore) α) (v : Store.Outages MemoryStore)
    (call' : Call StoreError (Store.Outages MemoryStore) β) : Prop :=
  Lockstep (Unreliable.Both (Renames π)) (Unreliable.Both (Renames π)) R call v call'

section Calls

variable {α β : Type} {R : α → β → Prop} {v : Store.Outages MemoryStore}
  {listing : MemoryStore.Listing}

theorem onRecords_alongside (kind : Store.CallKind) {failed : Store.Failure → Except StoreError α}
    {failed' : Store.Failure → Except StoreError β} {call : Call StoreError MemoryStore α}
    {call' : Call StoreError MemoryStore β}
    (fails : ∀ fault, Alike R (failed fault) (failed' fault))
    (alike : Alike R (call.exec (v.service.rename π)).1 (call'.exec v.service).1)
    (after : (call.exec (v.service.rename π)).2 = (call'.exec v.service).2.rename π) :
    Alongside π R (Unreliable.guard kind failed (onRecords call)) v
      (Unreliable.guard kind failed' call') := by
  refine Unreliable.guard_lockstep kind fails fun s renames => ?_
  rw [onRecords, Call.exec_onPart, renames, Call.mapError_id]
  exact ⟨alike, after⟩

theorem result_alike (fault : Store.Failure) : Alike R fault.result fault.result :=
  .error _

theorem found_alike {R : Option α → Option β → Prop} (nothing : R none none)
    (fault : Store.Failure) : Alike R fault.found fault.found := by
  cases fault with
  | absent => exact .ok nothing
  | broken => exact .error _

theorem save_alongside (kind : Store.CallKind) {check check' : Except RecordFault Unit}
    (same : check = check') (put put' : MemoryStore → MemoryStore)
    (puts : put (v.service.rename π) = (put' v.service).rename π) :
    Alongside π Eq
      (Unreliable.guard kind Store.Failure.result (onRecords (MemoryStore.save check put))) v
      (Unreliable.guard kind Store.Failure.result (MemoryStore.save check' put')) := by
  subst same
  -- A record that is refused leaves the stores alone; one that is kept is put into both.
  cases check with
  | error fault => exact onRecords_alongside _ result_alike (.error _) rfl
  | ok => exact onRecords_alongside _ result_alike (.ok rfl) puts

theorem saveInstance_alongside (named : π "" = "") (i : Instance) :
    Alongside π Eq ((store listing).unreliable.saveInstance (i.rename π)) v
      (MemoryStore.store.unreliable.saveInstance i) :=
  save_alongside .saveInstance (i.validate_rename named) (·.putInstance (i.rename π))
    (·.putInstance i) (MemoryStore.putInstance_rename i)

theorem findInstance_alongside (id : String) :
    Alongside π (fun found found' => found = found'.map (·.rename π))
      ((store listing).unreliable.findInstance id) v
      (MemoryStore.store.unreliable.findInstance id) :=
  onRecords_alongside _ (found_alike rfl) (.ok List.find?_map) rfl

theorem instances_alongside :
    Alongside π (fun l l' => l.Perm (l'.map (·.rename π)) ∧ l' = v.service.instances)
      (store listing).unreliable.instances v MemoryStore.store.unreliable.instances := by
  refine Unreliable.guard_lockstep _ result_alike fun s renames => ⟨.ok ⟨?_, rfl⟩, renames⟩
  refine (listing.perm s.listings s.records.instances).trans (.of_eq ?_)
  rw [renames, MemoryStore.rename]

theorem instancesOn_alongside (deployment : String) :
    Alongside π (fun l l' => l.Perm (l'.map (·.rename π)) ∧
        l' = v.service.instances.filter (·.deployment = deployment))
      ((store listing).unreliable.instancesOn deployment) v
      (MemoryStore.store.unreliable.instancesOn deployment) := by
  refine instances_alongside.bind fun l l' _ listed _ => .pure ?_
  obtain ⟨perm, rfl⟩ := listed
  have same := perm.filter (·.deployment = deployment)
  rw [List.filter_map] at same
  exact ⟨same, rfl⟩

theorem deleteInstance_alongside (id : String) :
    Alongside π Eq ((store listing).unreliable.deleteInstance id) v
      (MemoryStore.store.unreliable.deleteInstance id) :=
  onRecords_alongside _ result_alike (.ok rfl) (MemoryStore.removeInstance_rename id)

theorem saveBinding_alongside (b : Binding) :
    Alongside π Eq ((store listing).unreliable.saveBinding b) v
      (MemoryStore.store.unreliable.saveBinding b) :=
  save_alongside .saveBinding rfl (·.putBinding b) (·.putBinding b) rfl

theorem findBinding_alongside (id : String) :
    Alongside π Eq ((store listing).unreliable.findBinding id) v
      (MemoryStore.store.unreliable.findBinding id) :=
  onRecords_alongside _ (found_alike rfl) (.ok rfl) rfl

theorem deleteBinding_alongside (id : String) :
    Alongside π Eq ((store listing).unreliable.deleteBinding id) v
      (MemoryStore.store.unreliable.deleteBinding id) :=
  onRecords_alongside _ result_alike (.ok rfl) rfl

theorem bindings_alongside (id : String) :
    Alongside π Eq ((store listing).unreliable.bindings id) v
      (MemoryStore.store.unreliable.bindings id) :=
  onRecords_alongside _ result_alike (.ok rfl) rfl

end Calls

end ShuffledStore

end LedgerBroker
