import LedgerBroker.Proofs.Tenancy

set_option autoImplicit false

namespace LedgerBroker

namespace Plan

theorem deployment_of_dedicated {plan : Plan} (dedicated : plan.isShared = false) (id : String) :
    plan.deployment id = "fabric-" ++ id := by
  cases plan <;> first | rfl | cases dedicated

theorem id_of_shared_deployment {plan : Plan} (shared : plan.isShared = true) {id other : String}
    (same : plan.deployment other = "fabric-" ++ id) :
    id = "shared-permissioned" ∨ id = "shared-permissionless" := by
  have named (rest : String) (h : "fabric-" ++ rest = "fabric-" ++ id) : id = rest :=
    ((String.append_right_inj "fabric-").mp h).symm
  cases plan with
  | permissionless | permissioned => cases shared
  | sharedPermissioned => exact .inl (named "shared-permissioned" same)
  | sharedPermissionless => exact .inr (named "shared-permissionless" same)

end Plan

def Instance.IsDedicated (i : Instance) : Prop :=
  ∃ plan, i.plan? = some plan ∧ plan.isShared = false

namespace Broker

variable {δ μ : Type}

def Alone (w : Broker δ MemoryStore) (i : Instance) : Prop :=
  ∀ j ∈ w.records.instances, j.deployment = i.deployment ∨ j.network = i.network → j = i

theorem Tenancy.alone {w : Broker δ MemoryStore} (h : Tenancy w) {i : Instance}
    (mem : i ∈ w.records.instances) (dedicated : i.IsDedicated)
    (own : i.id ≠ "shared-permissioned" ∧ i.id ≠ "shared-permissionless") : w.Alone i := by
  intro j mem' same
  have same : j.deployment = i.deployment := same.elim id (h.agree j mem' i mem).network_iff.mp
  obtain ⟨plan, resolved, dedicated⟩ := dedicated
  obtain ⟨plan', resolved', named⟩ := h.planned i mem
  obtain rfl : plan = plan' := Option.some.inj (resolved.symm.trans resolved')
  obtain ⟨other, -, named'⟩ := h.planned j mem'
  rw [named', named, Plan.deployment_of_dedicated dedicated] at same
  -- The deployment is shared and the id clashes with it, or it is named after the id.
  cases shared : other.isShared with
  | true =>
    rcases Plan.id_of_shared_deployment shared same with clash | clash
    · exact absurd clash own.1
    · exact absurd clash own.2
  | false =>
    rw [Plan.deployment_of_dedicated shared] at same
    exact h.id_unique j mem' i mem ((String.append_right_inj "fabric-").mp same)

/-- What an id owes its tenants: an instance with it that is on a dedicated plan is alone, and no
instance on a shared plan is on the deployment that a dedicated plan names after it. -/
structure Dedicated (w : Broker δ MemoryStore) (id : String) : Prop where
  alone : ∀ i ∈ w.records.instances, i.id = id → i.IsDedicated → w.Alone i
  unjoined : ∀ j ∈ w.records.instances, ∀ plan, j.plan? = some plan → plan.isShared = true →
    j.deployment ≠ Plan.permissionless.deployment id

theorem Tenancy.dedicated {w : Broker δ MemoryStore} (h : Tenancy w) {id : String}
    (own : id ≠ "shared-permissioned" ∧ id ≠ "shared-permissionless") : w.Dedicated id where
  alone i mem same dedicated := h.alone mem dedicated (same ▸ own)
  unjoined j mem plan resolved shared same := by
    obtain ⟨plan', resolved', named⟩ := h.planned j mem
    obtain rfl : plan = plan' := Option.some.inj (resolved.symm.trans resolved')
    rcases Plan.id_of_shared_deployment shared (named.symm.trans same) with clash | clash
    · exact own.1 clash
    · exact own.2 clash

section Takeover

def oneNetwork (events : List (Event SimulatedDirector.Move)) :
    Broker (Director.Outages SimulatedDirector) MemoryStore :=
  (run (inMemory SimulatedDirector.faulty someDetails) SimulatedDirector.Move.apply
    (fresh ["net1"] (SimulatedDirector.idle false false)) events).settled

def takeover (id : String) (shared : Plan) : List (Event SimulatedDirector.Move) := [
  .act (.provision id (orderOf .permissionless) true 0 firstDay),
  .act (.provision "tenant" (orderOf shared) true 0 firstDay)]

theorem takeover_recorded {id : String} {shared : Plan} (isShared : shared.isShared = true)
    (named : shared.deployment "tenant" = "fabric-" ++ id) :
    (oneNetwork (takeover id shared)).records.instances = [
      Instance.new id ("fabric-" ++ id) "net1" (Numeral.decimal 1) (orderOf .permissionless)
        firstDay,
      Instance.new "tenant" ("fabric-" ++ id) "net1" (Numeral.decimal 1) (orderOf shared)
        firstDay] := by
  -- The shared plan fixes the id. From there on the run is evaluated.
  cases shared with
  | permissionless | permissioned => cases isShared
  | sharedPermissioned =>
    obtain rfl : "shared-permissioned" = id := (String.append_right_inj "fabric-").mp named
    rfl
  | sharedPermissionless =>
    obtain rfl : "shared-permissionless" = id := (String.append_right_inj "fabric-").mp named
    rfl

theorem takeover_not_alone {id : String} {shared : Plan} (isShared : shared.isShared = true)
    (named : shared.deployment "tenant" = "fabric-" ++ id) :
    ∃ i ∈ (oneNetwork (takeover id shared)).records.instances,
      i.id = id ∧ i.IsDedicated ∧ ¬(oneNetwork (takeover id shared)).Alone i := by
  have recorded := takeover_recorded isShared named
  have dedicated : (Instance.new id ("fabric-" ++ id) "net1" (Numeral.decimal 1)
      (orderOf .permissionless) firstDay).IsDedicated :=
    ⟨.permissionless, resolve_orderOf .permissionless, rfl⟩
  refine ⟨_, recorded ▸ List.mem_cons_self, rfl, dedicated, fun alone => ?_⟩
  have tenant : Instance.new "tenant" ("fabric-" ++ id) "net1" (Numeral.decimal 1)
      (orderOf shared) firstDay ∈ (oneNetwork (takeover id shared)).records.instances := by
    rw [recorded]
    exact List.mem_cons_of_mem _ List.mem_cons_self
  have same : "tenant" = id := congrArg Instance.id (alone _ tenant (.inl rfl))
  rcases Plan.id_of_shared_deployment isShared named with rfl | rfl <;> simp at same

end Takeover

/-- Along every run over every Director an id keeps its dedicated deployment apart if and only if
it is not the rest of a shared deployment's name. -/
theorem dedicated_iff (id : String) :
    (∀ (δ μ : Type) (d : Director δ) (details : DirectorDetails) (move : μ → δ → δ)
        (networks : List String) (x : δ) (events : List (Event μ)),
      (run (inMemory d details) move (fresh networks x) events).settled.Dedicated id) ↔
    id ≠ "shared-permissioned" ∧ id ≠ "shared-permissionless" := by
  constructor
  · intro dedicated
    have clash (shared : Plan) (isShared : shared.isShared = true)
        (named : shared.deployment "tenant" = "fabric-" ++ id) : False := by
      obtain ⟨i, mem, own, mine, notAlone⟩ := takeover_not_alone isShared named
      exact notAlone ((dedicated _ _ _ _ _ _ _ (takeover id shared)).alone i mem own mine)
    exact ⟨fun same => clash .sharedPermissioned rfl (same ▸ rfl),
      fun same => clash .sharedPermissionless rfl (same ▸ rfl)⟩
  · intro own δ μ d details move networks x events
    exact (Tenancy.run networks x events).dedicated own

theorem shared_plan_joins_dedicated_deployment :
    ∃ i ∈ (oneNetwork (takeover "shared-permissioned" .sharedPermissioned)).records.instances,
      i.id = "shared-permissioned" ∧ i.IsDedicated ∧
        ¬(oneNetwork (takeover "shared-permissioned" .sharedPermissioned)).Alone i :=
  takeover_not_alone rfl rfl

end Broker

end LedgerBroker
