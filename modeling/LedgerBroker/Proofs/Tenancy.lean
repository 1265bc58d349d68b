import LedgerBroker.Proofs.Membership
import LedgerBroker.Proofs.Run

set_option autoImplicit false

namespace LedgerBroker

namespace Instance

def plan? (i : Instance) : Option Plan := Plan.resolve? i.request.serviceId i.request.planId

structure Agree (i j : Instance) : Prop where
  network_iff : i.network = j.network ↔ i.deployment = j.deployment
  task : i.deployment = j.deployment → i.provisionTask = j.provisionTask

theorem Agree.refl (i : Instance) : Agree i i := ⟨Iff.rfl.trans (by simp), fun _ => rfl⟩

theorem Agree.symm {i j : Instance} (h : Agree i j) : Agree j i :=
  ⟨by rw [eq_comm, h.network_iff, eq_comm], fun same => (h.task same.symm).symm⟩

theorem validate_eq_ok {i : Instance} : i.validate = .ok () ↔
    i.id ≠ "" ∧ i.deployment ≠ "" ∧ i.network ≠ "" ∧ i.blockchainNetworkId ≠ "" := by
  simp only [validate, check_eq_ok, last_check_eq_ok, ne_eq]

theorem validate_new {plan : Plan} {id network task : String} {request : Request}
    {now : Timestamp} :
    (Instance.new id (plan.deployment id) network task request now).validate = .ok () ↔
      id ≠ "" ∧ network ≠ "" := by
  have named : plan.deployment id ≠ "" := by
    cases plan <;> simp [Plan.deployment]
  rw [validate_eq_ok]
  simp only [Instance.new]
  exact ⟨fun ⟨own, _, placed, _⟩ => ⟨own, placed⟩, fun ⟨own, placed⟩ => ⟨own, named, placed, own⟩⟩

theorem blank_of_invalid {plan : Plan} {id network task : String} {request : Request}
    {now : Timestamp}
    (invalid : (Instance.new id (plan.deployment id) network task request now).validate ≠ .ok ()) :
    id = "" ∨ network = "" := by
  refine Decidable.byContradiction fun filled => invalid (validate_new.mpr ?_)
  exact not_or.mp filled

end Instance

namespace Broker

variable {δ μ : Type} {d : Director δ} {details : DirectorDetails} {may : Store.CallKind → Prop}
  {move : μ → δ → δ}

structure Tenancy (w : Broker δ MemoryStore) : Prop where
  id_unique : ∀ i ∈ w.records.instances, ∀ j ∈ w.records.instances, i.id = j.id → i = j
  agree : ∀ i ∈ w.records.instances, ∀ j ∈ w.records.instances, i.Agree j
  taken : ∀ i ∈ w.records.instances, i.network ∉ w.pool.available
  planned : ∀ i ∈ w.records.instances, ∃ plan, i.plan? = some plan ∧
    i.deployment = plan.deployment i.id

namespace Tenancy

variable {w w' : Broker δ MemoryStore}

theorem start (networks : List String) (x : δ) : Tenancy (fresh networks x).settled := by
  have none (i : Instance) : i ∉ (fresh networks x).settled.records.instances := List.not_mem_nil
  constructor <;> exact fun i mem => absurd mem (none i)

theorem shrink (h : Tenancy w) {pool : NetworkPool} {x : δ} {records : MemoryStore}
    (sub : ∀ i ∈ records.instances, i ∈ w.records.instances)
    (taken : ∀ i ∈ records.instances, i.network ∉ pool.available) : Tenancy ⟨pool, x, records⟩ where
  id_unique i mem j mem' := h.id_unique i (sub i mem) j (sub j mem')
  agree i mem j mem' := h.agree i (sub i mem) j (sub j mem')
  taken := taken
  planned i mem := h.planned i (sub i mem)

theorem moved (h : Tenancy w) (x : δ) : Tenancy { w with director := x } :=
  h.shrink (fun _ mem => mem) h.taken

theorem put (h : Tenancy w) {pool : NetworkPool} {x : δ} {i : Instance}
    (agree : ∀ j ∈ w.records.instances, j.id ≠ i.id → i.Agree j)
    (taken : ∀ j ∈ w.records.instances, j.network ∉ pool.available)
    (itself : i.network ∉ pool.available)
    (planned : ∃ plan, i.plan? = some plan ∧ i.deployment = plan.deployment i.id) :
    Tenancy ⟨pool, x, w.records.putInstance i⟩ where
  id_unique j mem k mem' same := by
    rcases MemoryStore.mem_putInstance.mp mem with ⟨old, other⟩ | rfl <;>
      rcases MemoryStore.mem_putInstance.mp mem' with ⟨old', other'⟩ | rfl
    · exact h.id_unique j old k old' same
    · exact absurd same other
    · exact absurd same.symm other'
    · rfl
  agree j mem k mem' := by
    rcases MemoryStore.mem_putInstance.mp mem with ⟨old, other⟩ | rfl <;>
      rcases MemoryStore.mem_putInstance.mp mem' with ⟨old', other'⟩ | rfl
    · exact h.agree j old k old'
    · exact (agree j old other).symm
    · exact agree k old' other'
    · exact .refl _
  taken j mem := by
    rcases MemoryStore.mem_putInstance.mp mem with ⟨old, _⟩ | rfl
    · exact taken j old
    · exact itself
  planned j mem := by
    rcases MemoryStore.mem_putInstance.mp mem with ⟨old, _⟩ | rfl
    · exact h.planned j old
    · exact planned

variable {id : String}

theorem eq_of_found (h : Tenancy w) {i j : Instance} (mem : i ∈ w.records.instances)
    (found : w.records.instances.find? (·.id = id) = some j) (own : i.id = id) : i = j := by
  have ⟨recorded, same⟩ := MemoryStore.mem_of_find found
  exact h.id_unique i mem j recorded (own.trans same.symm)

theorem find (h : Tenancy w) {i : Instance} (mem : i ∈ w.records.instances) (own : i.id = id) :
    w.records.instances.find? (·.id = id) = some i := by
  cases found : w.records.instances.find? (·.id = id) with
  | none =>
    have absent := List.find?_eq_none.mp found i mem
    simp [own] at absent
  | some j => exact congrArg some (h.eq_of_found mem found own).symm

theorem remain_left (h : Tenancy w) {i other : Instance}
    (found : w.records.instances.find? (·.id = id) = some i)
    (left : other ∈ (w.records.removeInstance id).instances)
    (same : other.deployment = i.deployment) :
    ∀ j ∈ w.records.instances, ∃ k ∈ (w.records.removeInstance id).instances,
      k.deployment = j.deployment ∧ k.network = j.network := by
  intro j mem
  by_cases leaving : j.id = id
  · obtain rfl := h.eq_of_found mem found leaving
    have ⟨mem', _⟩ := MemoryStore.mem_removeInstance.mp left
    exact ⟨other, left, same, (h.agree other mem' j mem).network_iff.mpr same⟩
  · exact ⟨j, MemoryStore.mem_removeInstance.mpr ⟨mem, leaving⟩, rfl, rfl⟩

theorem remain_marked (h : Tenancy w) {i : Instance} (recorded : i ∈ w.records.instances)
    (token : String) (now : Timestamp) :
    ∀ j ∈ w.records.instances,
      ∃ k ∈ (w.records.putInstance (i.markDeprovisioning token now)).instances,
        k.deployment = j.deployment ∧ k.network = j.network := by
  intro j mem
  by_cases marked : j.id = i.id
  · obtain rfl := h.id_unique j mem i recorded marked
    exact ⟨_, MemoryStore.mem_putInstance.mpr (.inr rfl), rfl, rfl⟩
  · exact ⟨j, MemoryStore.mem_putInstance.mpr (.inl ⟨mem, marked⟩), rfl, rfl⟩

theorem provisioned (h : Tenancy w) {request : Request} {choice : Nat} {now : Timestamp}
    {result : Except BrokerError String}
    (outcome : Provisioned d details may w id request choice now result w') : Tenancy w' := by
  cases outcome with
  | refused => exact h
  | joined plan live resolved _ id_new recorded same =>
    -- The new instance takes after the live one, which agrees with all others.
    refine h.put (fun j mem _ => ?_) h.taken (h.taken live recorded) ⟨plan, resolved, rfl⟩
    have agree := h.agree live recorded j mem
    exact ⟨same ▸ agree.network_iff, same ▸ agree.task⟩
  | notStarted p e failed =>
    refine h.shrink (fun _ mem => mem) (fun i mem free => ?_)
    exact h.taken i mem (NetworkPool.mem_of_release_acquired p.acquired free)
  | unrecorded p task e created =>
    refine h.shrink (fun _ mem => mem) (fun i mem free => ?_)
    -- What is free now was free before the network was taken.
    have free := (NetworkPool.mem_available_quarantine.mp free).1
    exact h.taken i mem ((NetworkPool.mem_available_acquire p.acquired).mp free).1
  | recorded p task created =>
    -- The network was free and the deployment was not taken, so no instance has either.
    have unused : ∀ j ∈ w.records.instances, j.network ≠ p.network := fun j mem same =>
      h.taken j mem (same ▸ (NetworkPool.acquire_ok p.acquired).1)
    refine h.put (fun j mem _ => ?_) (fun j mem free => ?_) (fun free => ?_)
      ⟨p.plan, p.resolved, rfl⟩
    · have apart := p.deployment_new j mem
      refine ⟨⟨fun same => absurd same.symm (unused j mem), fun same => absurd same.symm apart⟩,
        fun same => absurd same.symm apart⟩
    · exact h.taken j mem ((NetworkPool.mem_available_acquire p.acquired).mp free).1
    · exact ((NetworkPool.mem_available_acquire p.acquired).mp free).2 rfl

theorem deprovisioned (h : Tenancy w) {now : Timestamp} {result : Except BrokerError Deletion}
    (outcome : Deprovisioned d may w id now result w') : Tenancy w' := by
  cases outcome with
  | unchanged | notDeleted | unmarked => exact h.moved _
  | left =>
    have sub : ∀ i ∈ (w.records.removeInstance id).instances, i ∈ w.records.instances :=
      fun i mem => (MemoryStore.mem_removeInstance.mp mem).1
    exact h.shrink sub (fun i mem => h.taken i (sub i mem))
  | marked p x asked task deleted =>
    have mem := (MemoryStore.mem_of_find p.found).1
    refine h.put (fun j mem' _ => ?_) h.taken (h.taken p.i mem) (h.planned p.i mem)
    have agree := h.agree p.i mem j mem'
    exact ⟨agree.network_iff, agree.task⟩

theorem completed (h : Tenancy w) {result : Except BrokerError Unit}
    (outcome : Completed may w id result w') : Tenancy w' := by
  have sub : ∀ i ∈ (w.records.removeInstance id).instances, i ∈ w.records.instances :=
    fun i mem => (MemoryStore.mem_removeInstance.mp mem).1
  cases outcome with
  | failed | absent => exact h
  | stranded | shared => exact h.shrink sub (fun i mem => h.taken i (sub i mem))
  | freed i found unused =>
    refine h.shrink sub (fun j mem free => ?_)
    rcases NetworkPool.mem_available_release.mp free with free | ⟨same, _⟩
    · exact h.taken j (sub j mem) free
    · exact unused j mem same

theorem looked (h : Tenancy w) {operation : Option String} {result : Except BrokerError Polled}
    (outcome : Looked d w id operation result w') : Tenancy w' := by
  cases outcome <;> exact h.moved _

theorem refreshed (h : Tenancy w) {result : Except BrokerError Unit}
    (outcome : Refreshed d w result w') : Tenancy w' := by
  cases outcome with
  | failed => exact h.moved _
  | refreshed =>
    refine h.shrink (fun _ mem => mem) (fun i mem free => ?_)
    exact (NetworkPool.mem_available_refresh.mp free).2.1 i mem rfl

theorem turn (h : Tenancy w) {action : Action} (turn : Turn d details may w action w') :
    Tenancy w' := by
  cases turn with
  | provision outcome => exact h.provisioned outcome
  | deprovision outcome => exact h.deprovisioned outcome
  | looked outcome => exact h.looked outcome
  | completed looked _ outcome => exact (h.looked looked).completed outcome
  | bind outcome => cases outcome <;> exact h.shrink (fun _ mem => mem) h.taken
  | unbind outcome => cases outcome <;> exact h.shrink (fun _ mem => mem) h.taken
  | refresh outcome => exact h.refreshed outcome

theorem restart (h : Tenancy w) {networks : List String}
    (outcome : Refreshed d (Broker.start networks w.director w.records) (.ok ()) w') :
    Tenancy w' := by
  -- A broker that was just started takes every network for free. Only the refresh puts that right.
  cases outcome with
  | refreshed =>
    refine h.shrink (fun _ mem => mem) (fun i mem free => ?_)
    exact (NetworkPool.mem_available_refresh.mp free).2.1 i mem rfl

theorem keeps (events : List (Event μ)) :
    Keeps d details (fun _ => True) move events (Tenancy (δ := δ)) where
  turn _ _ _ _ h turn := h.turn turn
  restart _ _ _ _ h outcome := h.restart outcome
  move _ _ _ h := h.moved _
  breaks _ _ _ := trivial

theorem run (networks : List String) (x : δ) (events : List (Event μ)) :
    Tenancy (Broker.run (inMemory d details) move (fresh networks x) events).settled :=
  (run_keeps (keeps events) (fresh_breaks _ networks x) (start networks x)).2

end Tenancy

end Broker

end LedgerBroker
