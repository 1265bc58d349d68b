import LedgerBroker.Proofs.FailedActions

set_option autoImplicit false

namespace LedgerBroker

namespace Broker

open SimulatedDirector (faulty)

def Action.tenant? : Action → Option String
  | .provision id .. | .deprovision id .. | .lastOperation id .. | .bind id .. | .unbind id .. => some id
  | .refresh => none

section Bindings

variable {δ μ : Type} {d : Director δ} {details : DirectorDetails} {may : Store.CallKind → Prop}
  {move : μ → δ → δ} {w w' : Broker δ MemoryStore}

def BindingsApart (w : Broker δ MemoryStore) : Prop :=
  ∀ b ∈ w.records.bindings, ∀ c ∈ w.records.bindings, b.id = c.id → b = c

namespace BindingsApart

theorem turn (h : BindingsApart w) {action : Action} (turn : Turn d details may w action w') :
    BindingsApart w' := by
  cases turn with
  | provision outcome => cases outcome <;> exact h
  | deprovision outcome => cases outcome <;> exact h
  | looked outcome =>
    obtain ⟨x, _, rfl⟩ := outcome.asked
    exact h
  | completed looked _ outcome =>
    obtain ⟨x, _, rfl⟩ := looked.asked
    cases outcome <;> exact h
  | bind outcome =>
    cases outcome with
    | refused => exact h
    | bound =>
      intro b mem c mem' same
      -- The new binding takes the place of any other with its id.
      rcases MemoryStore.mem_putBinding.mp mem with ⟨old, other⟩ | rfl <;>
        rcases MemoryStore.mem_putBinding.mp mem' with ⟨old', other'⟩ | rfl
      · exact h b old c old' same
      · exact absurd same other
      · exact absurd same.symm other'
      · rfl
  | unbind outcome =>
    cases outcome with
    | refused => exact h
    | unbound =>
      intro b mem c mem' same
      have ⟨old, _⟩ := MemoryStore.mem_removeBinding.mp mem
      have ⟨old', _⟩ := MemoryStore.mem_removeBinding.mp mem'
      exact h b old c old' same
  | refresh outcome => cases outcome <;> exact h

theorem keeps (events : List (Event μ)) :
    Keeps d details (fun _ => True) move events (BindingsApart (δ := δ)) where
  turn _ _ _ _ h turn := h.turn turn
  restart _ _ _ _ h outcome := by cases outcome; exact h
  move _ _ _ h := h
  breaks _ _ _ := trivial

theorem run (networks : List String) (x : δ) (events : List (Event μ)) :
    BindingsApart (Broker.run (inMemory d details) move (fresh networks x) events).settled :=
  (run_keeps (keeps events) (fresh_breaks _ networks x)
    (fun _ mem => absurd mem List.not_mem_nil)).2

end BindingsApart

structure KeepsOthers (tenant : Option String) (r r' : MemoryStore) : Prop where
  instances : ∀ i, tenant ≠ some i.id → (i ∈ r'.instances ↔ i ∈ r.instances)
  bindings : ∀ b, tenant ≠ some b.instanceId → (b ∈ r'.bindings ↔ b ∈ r.bindings)

namespace KeepsOthers

variable {r : MemoryStore} {id : String} {tenant : Option String}

theorem refl (tenant : Option String) (r : MemoryStore) : KeepsOthers tenant r r :=
  ⟨fun _ _ => Iff.rfl, fun _ _ => Iff.rfl⟩

theorem putInstance {i : Instance} (own : i.id = id) :
    KeepsOthers (some id) r (r.putInstance i) where
  instances j other := by
    have apart : j.id ≠ i.id := fun same => other (congrArg some (same.trans own)).symm
    rw [MemoryStore.mem_putInstance]
    constructor
    · rintro (⟨old, _⟩ | rfl)
      · exact old
      · exact absurd rfl apart
    · exact fun old => .inl ⟨old, apart⟩
  bindings _ _ := Iff.rfl

theorem removeInstance : KeepsOthers (some id) r (r.removeInstance id) where
  instances j other := by
    have apart : j.id ≠ id := fun same => other (congrArg some same).symm
    rw [MemoryStore.mem_removeInstance]
    exact ⟨And.left, fun old => ⟨old, apart⟩⟩
  bindings _ _ := Iff.rfl

theorem putBinding {b : Binding} (own : b.instanceId = id) (new : ∀ c ∈ r.bindings, c.id ≠ b.id) :
    KeepsOthers (some id) r (r.putBinding b) where
  instances _ _ := Iff.rfl
  bindings c other := by
    rw [MemoryStore.mem_putBinding]
    constructor
    · rintro (⟨old, _⟩ | rfl)
      · exact old
      · exact absurd (congrArg some own).symm other
    · exact fun old => .inl ⟨old, new c old⟩

theorem removeBinding {b : Binding} (own : b.instanceId = id)
    (unique : ∀ c ∈ r.bindings, c.id = b.id → c = b) :
    KeepsOthers (some id) r (r.removeBinding b.id) where
  instances _ _ := Iff.rfl
  bindings c other := by
    rw [MemoryStore.mem_removeBinding]
    refine ⟨And.left, fun old => ⟨old, fun same => ?_⟩⟩
    -- What has the id of the binding is the binding, so that nobody else's goes with it.
    obtain rfl := unique c old same
    exact other (congrArg some own).symm

end KeepsOthers

theorem Turn.keepsOthers {action : Action} (turn : Turn d details may w action w')
    (apart : BindingsApart w) : KeepsOthers action.tenant? w.records w'.records := by
  cases turn with
  | provision outcome =>
    cases outcome with
    | refused | notStarted | unrecorded => exact .refl _ _
    | joined | recorded => exact .putInstance rfl
  | deprovision outcome =>
    cases outcome with
    | unchanged | notDeleted | unmarked => exact .refl _ _
    | left => exact .removeInstance
    | marked p => exact .putInstance (MemoryStore.mem_of_find p.found).2
  | looked outcome =>
    obtain ⟨x, _, rfl⟩ := outcome.asked
    exact .refl _ _
  | completed looked _ outcome =>
    obtain ⟨x, _, rfl⟩ := looked.asked
    cases outcome with
    | failed | absent => exact .refl _ _
    | stranded | shared | freed => exact .removeInstance
  | bind outcome =>
    cases outcome with
    | refused => exact .refl _ _
    | bound _ _ _ _ _ _ _ _ _ binding_new => exact .putBinding rfl binding_new
  | unbind outcome =>
    cases outcome with
    | refused => exact .refl _ _
    | unbound b found own =>
      have mem := List.mem_of_find?_eq_some found
      exact .removeBinding own fun c old same => apart c old b mem same
  | refresh outcome => cases outcome <;> exact .refl _ _

end Bindings

section Deployments

variable {details : DirectorDetails} {may : Store.CallKind → Prop} {action : Action} {id : String}
  {w w' : Broker (Director.Outages SimulatedDirector) MemoryStore}

structure Last (w : Broker (Director.Outages SimulatedDirector) MemoryStore) (i : Instance) :
    Prop where
  recorded : i ∈ w.records.instances
  alone : ∀ j ∈ w.records.instances, j.deployment = i.deployment → j = i

theorem Departure.last (p : Departure w id) (tenancy : Tenancy w) : Last w p.i := by
  have mem := (MemoryStore.mem_of_find p.found).1
  exact ⟨mem, fun j mem' same => tenancy.id_unique j mem' p.i mem (p.alone j mem' same)⟩

inductive Rearranges (action : Action)
    (w w' : Broker (Director.Outages SimulatedDirector) MemoryStore) : Prop
  | nothing (same : w'.director.service = w.director.service)
  | adds (name network : String) (unrecorded : ∀ i ∈ w.records.instances, i.deployment ≠ name)
      (adds : w.director.service.Adds w'.director.service name network)
      (told : w'.director.service.deleted = w.director.service.deleted)
  | drops (i : Instance) (last : Last w i)
      (asked : ∃ accepts now, action = .deprovision i.id accepts now)
      (drops : w.director.service.Drops w'.director.service i.deployment)

theorem Rearranges.asked {x : Director.Outages SimulatedDirector}
    (asked : faulty.Asked w.director x) (same : w'.director = x) : Rearranges action w w' :=
  .nothing (same ▸ SimulatedDirector.service_of_asked asked)

theorem Placement.rearranges {request : Request} {choice : Nat} (p : Placement w id request choice)
    {task : Task}
    (created : ((faulty.createDeployment (p.manifest details)).exec w.director).1 = .ok task)
    (same : w'.director = ((faulty.createDeployment (p.manifest details)).exec w.director).2) :
    Rearranges action w w' := by
  have adds := SimulatedDirector.adds_of_created
    (SimulatedDirector.networkName_render _ _ _ _) created
  obtain ⟨_, service⟩ := SimulatedDirector.service_of_created created
  exact .adds p.deployment p.network p.deployment_new (same ▸ adds) (by rw [same, service]; rfl)

theorem Departure.rearranges (p : Departure w id) (tenancy : Tenancy w) {accepts : Bool}
    {now : Timestamp} {x : Director.Outages SimulatedDirector} (asked : faulty.Asked w.director x)
    {task : Task} (deleted : ((faulty.deleteDeployment p.i.deployment).exec x).1 = .ok task)
    (same : w'.director = ((faulty.deleteDeployment p.i.deployment).exec x).2) :
    Rearranges (.deprovision id accepts now) w w' := by
  have own := (MemoryStore.mem_of_find p.found).2
  have drops := SimulatedDirector.drops_of_deleted deleted
  rw [SimulatedDirector.service_of_asked asked] at drops
  exact .drops p.i (p.last tenancy) ⟨accepts, now, by rw [own]⟩ (same ▸ drops)

theorem Turn.rearranges (turn : Turn faulty details may w action w') (tenancy : Tenancy w) :
    Rearranges action w w' := by
  cases turn with
  | provision outcome =>
    cases outcome with
    | refused | joined => exact .nothing rfl
    | notStarted p e failed => exact .nothing (SimulatedDirector.service_of_not_created failed)
    | unrecorded p task e created | recorded p task created => exact p.rearranges created rfl
  | deprovision outcome =>
    cases outcome with
    | unchanged _ x asked | left _ _ x asked => exact .asked asked rfl
    | notDeleted p x asked e failed =>
      exact .nothing ((SimulatedDirector.service_of_not_deleted failed).trans
        (SimulatedDirector.service_of_asked asked))
    | unmarked p x asked task deleted | marked p x asked task deleted =>
      exact p.rearranges tenancy asked deleted rfl
  | looked outcome =>
    obtain ⟨x, asked, rfl⟩ := outcome.asked
    exact .asked asked rfl
  | completed looked _ outcome =>
    obtain ⟨x, asked, rfl⟩ := looked.asked
    cases outcome <;> exact .asked asked rfl
  | bind outcome =>
    cases outcome with
    | refused e x asked | bound _ _ _ x asked => exact .asked asked rfl
  | unbind outcome => cases outcome <;> exact .nothing rfl
  | refresh outcome =>
    cases outcome with
    | failed e x asked | refreshed _ _ x asked => exact .asked asked rfl

structure LeavesDeployments (tenant : Option String)
    (w w' : Broker (Director.Outages SimulatedDirector) MemoryStore) : Prop where
  deployments : ∀ i ∈ w.records.instances, tenant ≠ some i.id →
    (i.deployment ∈ w'.director.service.deployments ↔ i.deployment ∈ w.director.service.deployments)
  networks : ∀ i ∈ w.records.instances, tenant ≠ some i.id →
    w'.director.service.network? i.deployment = w.director.service.network? i.deployment

theorem Rearranges.leaves (h : Rearranges action w w') :
    LeavesDeployments action.tenant? w w' := by
  cases h with
  | nothing same =>
    constructor <;> intro i _ _ <;> rw [same]
  | adds name network unrecorded adds =>
    constructor
    · intro i mem _
      have other := unrecorded i mem
      rw [adds.deployments]
      exact ⟨fun there => there.resolve_right other, .inl⟩
    · intro i mem _
      exact (adds.networks _).trans (if_neg (unrecorded i mem))
  | drops i last asked drops =>
    obtain ⟨accepts, now, rfl⟩ := asked
    -- Whoever is on the deployment that goes is the instance that goes.
    have apart {j : Instance} (mem : j ∈ w.records.instances) (other : some i.id ≠ some j.id) :
        j.deployment ≠ i.deployment :=
      fun same => other (congrArg (some ·.id) (last.alone j mem same).symm)
    constructor
    · intro j mem other
      rw [drops.deployments]
      exact ⟨And.left, fun there => ⟨there, apart mem other⟩⟩
    · intro j mem other
      exact (drops.networks _).trans (if_neg (apart mem other))

/-- The Director is told to delete nothing and all deployments stay, or the last instance on one
deployment is deprovisioned and just that deployment goes. -/
inductive DeletesLast (action : Action)
    (w w' : Broker (Director.Outages SimulatedDirector) MemoryStore) : Prop
  | nothing (told : w'.director.service.deleted = w.director.service.deleted)
      (stay : ∀ name ∈ w.director.service.deployments, name ∈ w'.director.service.deployments)
  | last (i : Instance) (last : Last w i)
      (asked : ∃ accepts now, action = .deprovision i.id accepts now)
      (drops : w.director.service.Drops w'.director.service i.deployment)

theorem Rearranges.deletesLast (h : Rearranges action w w') : DeletesLast action w w' := by
  cases h with
  | nothing same => exact .nothing (same ▸ rfl) (fun name mem => same ▸ mem)
  | adds name network _ adds told =>
    exact .nothing told fun other mem => (adds.deployments other).mpr (.inl mem)
  | drops i last asked drops => exact .last i last asked drops

structure Confined (action : Action)
    (w w' : Broker (Director.Outages SimulatedDirector) MemoryStore) : Prop where
  records : KeepsOthers action.tenant? w.records w'.records
  director : LeavesDeployments action.tenant? w w'
  networks : ∀ i ∈ w.records.instances, action.tenant? ≠ some i.id → i.network ∉ w'.pool.available
  deletion : DeletesLast action w w'

theorem Turn.confined (turn : Turn faulty details may w action w') (tenancy : Tenancy w)
    (apart : BindingsApart w) : Confined action w w' where
  records := turn.keepsOthers apart
  director := (turn.rearranges tenancy).leaves
  networks i mem other :=
    (tenancy.turn turn).taken i (((turn.keepsOthers apart).instances i other).mpr mem)
  deletion := (turn.rearranges tenancy).deletesLast

end Deployments

/-- An action leaves all other instances, the bindings for them, their deployments and their networks
as they are, and a deployment goes only with the last instance on it. -/
theorem action_confined (details : DirectorDetails) (networks : List String) (fails atOnce : Bool)
    (events : List (Event SimulatedDirector.Move)) (action : Action) :
    let b := run (inMemory faulty details) SimulatedDirector.Move.apply
      (fresh networks (SimulatedDirector.idle fails atOnce)) events
    Confined action b.settled (perform (inMemory faulty details) b action).settled := by
  intro b
  have turn : Turn faulty details (fun _ => True) b.settled action
      (perform (inMemory faulty details) b action).settled :=
    (turn_perform action b (run_breaks (fresh_breaks _ _ _))).2
  exact turn.confined (.run networks _ events) (.run networks _ events)

end Broker

end LedgerBroker
