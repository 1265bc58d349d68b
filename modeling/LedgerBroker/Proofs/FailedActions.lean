import LedgerBroker.Proofs.Recovery

set_option autoImplicit false

namespace LedgerBroker

namespace SimulatedDirector

structure Adds (s t : SimulatedDirector) (deployment network : String) : Prop where
  deployments : ∀ other, other ∈ t.deployments ↔ other ∈ s.deployments ∨ other = deployment
  networks : ∀ other, t.network? other =
    if other = deployment then some network else s.network? other

structure Drops (s t : SimulatedDirector) (deployment : String) : Prop where
  deployments : ∀ other, other ∈ t.deployments ↔ other ∈ s.deployments ∧ other ≠ deployment
  networks : ∀ other, t.network? other =
    if other = deployment then none else s.network? other

variable {x : Director.Outages SimulatedDirector} {task : Task}

theorem adds_of_created {m : Manifest} {network : String} (placed : m.networkName = some network)
    (created : ((faulty.createDeployment m).exec x).1 = .ok task) :
    x.service.Adds ((faulty.createDeployment m).exec x).2.service m.name network where
  deployments other := by
    obtain ⟨_, same⟩ := service_of_created created
    rw [same]
    exact mem_addDeployment
  networks _ := network_of_created placed created

theorem drops_of_deleted {deployment : String}
    (deleted : ((faulty.deleteDeployment deployment).exec x).1 = .ok task) :
    x.service.Drops ((faulty.deleteDeployment deployment).exec x).2.service deployment where
  deployments other := by
    obtain ⟨_, _, same⟩ := service_of_deleted deleted
    rw [same]
    exact mem_removeDeployment
  networks _ := network_of_deleted deleted

end SimulatedDirector

namespace NetworkPool

structure Withdraws (p q : NetworkPool) (deployment network : String) : Prop where
  was_free : network ∈ p.available
  available : ∀ n, n ∈ q.available ↔ n ∈ p.available ∧ n ≠ network
  orphans : q.orphans = p.orphans ++ [(deployment, network)]

variable {p q : NetworkPool} {n deployment : String} {choice : Nat}

theorem Same.refl (p : NetworkPool) : p.Same p := ⟨fun _ => Iff.rfl, fun _ => rfl⟩

theorem same_giveBack (h : p.acquire choice = .ok (n, q)) (configured : n ∈ p.configured)
    (unheld : p.isHeld n = false) : p.Same (q.release n) where
  available _ := (mem_available_giveBack h configured unheld).symm
  orphans name := by rw [orphans_release, orphans_acquire h]

theorem withdraws_quarantine (h : p.acquire choice = .ok (n, q))
    (known : p.isOrphaned deployment = false) :
    p.Withdraws (q.quarantine deployment n) deployment n where
  was_free := (acquire_ok h).1
  available m := by
    rw [mem_available_quarantine, mem_available_acquire h]
    exact ⟨fun both => both.1, fun both => ⟨both, both.2⟩⟩
  orphans := by
    have others : p.orphans.filter (·.1 ≠ deployment) = p.orphans :=
      List.filter_eq_self.mpr fun o mem => by simpa using ne_of_not_isOrphaned known mem
    simp only [quarantine, orphans_acquire h, others]

end NetworkPool

namespace Broker

open SimulatedDirector (faulty)

def answer {δ ρ : Type} (s : Services δ ρ) (b : Broker δ ρ) : Action → Except BrokerError Unit
  | .provision id request accepts choice now =>
    ((provision s id request accepts choice now).exec b).1.map fun _ => ()
  | .deprovision id accepts now => ((deprovision s id accepts now).exec b).1.map fun _ => ()
  | .lastOperation id operation => ((lastOperation s id operation).exec b).1.map fun _ => ()
  | .bind id bindingId request now => ((bind s id bindingId request now).exec b).1.map fun _ => ()
  | .unbind id bindingId => ((unbind s id bindingId).exec b).1
  | .refresh => ((refresh s).exec b).1

theorem error_of_map {α β : Type} {result : Except BrokerError α} {f : α → β} {e : BrokerError}
    (h : result.map f = .error e) : result = .error e := by
  cases result with
  | error e' => exact congrArg Except.error (Except.error.inj h)
  | ok a => cases h

variable {details : DirectorDetails} {networks : List String} {kept : Prop}
  {b : Broker (Director.Outages SimulatedDirector) (Store.Outages MemoryStore)}
  {action : Action} {e : BrokerError}

/-- Calls of this kind on the store break, now or after some more of them. -/
def Announced (b : Broker (Director.Outages SimulatedDirector) (Store.Outages MemoryStore))
    (kind : Store.CallKind) : Prop := ∃ o ∈ b.records.outages, o.kind = kind

def Unsaved (b : Broker (Director.Outages SimulatedDirector) (Store.Outages MemoryStore))
    (i : Instance) : Prop := b.Announced .saveInstance ∨ i.validate ≠ .ok ()

/-- What an action leaves that fails. A deployment that is put up is a new one as long as no broker
with other networks took over, which is what `kept` stands for. -/
inductive Aborted (details : DirectorDetails) (kept : Prop)
    (b : Broker (Director.Outages SimulatedDirector) (Store.Outages MemoryStore)) :
    Action → Broker (Director.Outages SimulatedDirector) MemoryStore → Prop
  | unchanged {action w'} (records : w'.records = b.records.service) (pool : b.pool.Same w'.pool)
      (director : w'.director.service = b.director.service) : Aborted details kept b action w'
  | quarantined {id request accepts choice now w'} (plan : Plan) (network : String) (task : Task)
      (resolved : Plan.resolve? request.serviceId request.planId = some plan)
      (created : ((faulty.createDeployment (Manifest.render (plan.deployment id) network
        plan.isPermissioned details)).exec b.director).1 = .ok task)
      (unsaved : b.Unsaved
        (Instance.new id (plan.deployment id) network task.token request now))
      (records : w'.records = b.records.service)
      (pool : b.pool.Withdraws w'.pool (plan.deployment id) network)
      (director : b.director.service.Adds w'.director.service (plan.deployment id) network)
      (new : kept → plan.deployment id ∉ b.director.service.deployments) :
      Aborted details kept b (.provision id request accepts choice now) w'
  | unmarked {id accepts now w'} (i : Instance) (task : Task)
      (found : b.records.service.instances.find? (·.id = id) = some i)
      (deleted : ∃ x, x.service = b.director.service ∧
        ((faulty.deleteDeployment i.deployment).exec x).1 = .ok task)
      (unsaved : b.Unsaved (i.markDeprovisioning task.token now))
      (records : w'.records = b.records.service) (pool : w'.pool = b.pool)
      (director : b.director.service.Drops w'.director.service i.deployment) :
      Aborted details kept b (.deprovision id accepts now) w'

namespace Aborted

theorem asked {w' : Broker (Director.Outages SimulatedDirector) MemoryStore}
    {x : Director.Outages SimulatedDirector} (asked : faulty.Asked b.director x)
    (same : w' = ⟨b.pool, x, b.records.service⟩) : Aborted details kept b action w' := by
  subst same
  exact .unchanged rfl (.refl _) (SimulatedDirector.service_of_asked asked)

variable {may : Store.CallKind → Prop}
  {w' : Broker (Director.Outages SimulatedDirector) MemoryStore} {id : String} {now : Timestamp}

theorem provisioned (coherent : Coherent b.settled) (tidy : Tidy b.settled)
    (traced : kept → Traced networks b.settled) {request : Request} {accepts : Bool} {choice : Nat}
    (outcome : Provisioned faulty details b.Announced b.settled id request choice now
      (.error e) w') : Aborted details kept b (.provision id request accepts choice now) w' := by
  cases outcome with
  | refused => exact .unchanged rfl (.refl _) rfl
  | notStarted p e failed =>
    -- The network was free, so that it is configured and held by no orphan and does go back.
    have was_free := (NetworkPool.acquire_ok p.acquired).1
    have unheld : b.pool.isHeld p.network = false := NetworkPool.not_isHeld_iff.mpr
      fun o mem same => coherent.withholds.orphans o mem (same ▸ was_free)
    exact .unchanged rfl (NetworkPool.same_giveBack p.acquired (tidy.free _ was_free) unheld)
      (SimulatedDirector.service_of_not_created failed)
  | unrecorded p task e created unsaved =>
    refine .quarantined p.plan p.network task p.resolved created unsaved rfl
      (NetworkPool.withdraws_quarantine p.acquired p.not_orphaned)
      (SimulatedDirector.adds_of_created (SimulatedDirector.networkName_render _ _ _ _) created) ?_
    intro same running
    obtain ⟨n, on⟩ := (coherent.serves.listed _).mp running
    rcases (traced same).known _ n on with ⟨i, mem, recorded⟩ | orphan
    · exact p.deployment_new i mem recorded
    · exact NetworkPool.ne_of_not_isOrphaned p.not_orphaned orphan rfl

theorem deprovisioned {accepts : Bool}
    (outcome : Deprovisioned faulty b.Announced b.settled id now (.error e) w') :
    Aborted details kept b (.deprovision id accepts now) w' := by
  cases outcome with
  | unchanged result x asked => exact .asked asked rfl
  | notDeleted p x asked e failed =>
    have same := SimulatedDirector.service_of_asked asked
    exact .unchanged rfl (.refl _) ((SimulatedDirector.service_of_not_deleted failed).trans same)
  | unmarked p x asked task deleted e unsaved =>
    have same := SimulatedDirector.service_of_asked asked
    exact .unmarked p.i task p.found ⟨x, same, deleted⟩ unsaved rfl rfl
      (same ▸ SimulatedDirector.drops_of_deleted deleted)

theorem bound {bindingId : String} (outcome : Bound faulty b.settled id bindingId now (.error e) w') :
    Aborted details kept b action w' := by
  cases outcome with
  | refused e x asked => exact .asked asked rfl

theorem unbound {bindingId : String} (outcome : Unbound b.settled id bindingId (.error e) w') :
    Aborted details kept b action w' := by
  cases outcome with
  | refused => exact .unchanged rfl (.refl _) rfl

theorem refreshed (outcome : Refreshed faulty b.settled (.error e) w') :
    Aborted details kept b action w' := by
  cases outcome with
  | failed e x asked => exact .asked asked rfl

theorem performed (breaks : Store.Breaks (fun _ => True) b.records) (coherent : Coherent b.settled)
    (tidy : Tidy b.settled) (traced : kept → Traced networks b.settled)
    (noPoll : ∀ id operation, action ≠ .lastOperation id operation)
    (failed : answer (inMemory faulty details) b action = .error e) :
    Aborted details kept b action (perform (inMemory faulty details) b action).settled := by
  have announced : Store.Breaks b.Announced b.records :=
    fun o mem => ⟨⟨o, mem, rfl⟩, (breaks o mem).2⟩
  cases action with
  | provision id request accepts choice now =>
    have outcome : Provisioned faulty details b.Announced b.settled id request choice now
        ((provision (inMemory faulty details) id request accepts choice now).exec b).1
        (perform (inMemory faulty details) b
          (.provision id request accepts choice now)).settled :=
      (provision_yields id request accepts choice now b rfl announced).2
    rw [error_of_map failed] at outcome
    exact provisioned coherent tidy traced outcome
  | deprovision id accepts now =>
    have outcome : Deprovisioned faulty b.Announced b.settled id now
        ((deprovision (inMemory faulty details) id accepts now).exec b).1
        (perform (inMemory faulty details) b (.deprovision id accepts now)).settled :=
      (deprovision_yields id accepts now b rfl announced).2
    rw [error_of_map failed] at outcome
    exact deprovisioned outcome
  | lastOperation id operation => exact absurd rfl (noPoll id operation)
  | bind id bindingId request now =>
    have outcome : Bound faulty b.settled id bindingId now
        ((bind (inMemory faulty details) id bindingId request now).exec b).1
        (perform (inMemory faulty details) b (.bind id bindingId request now)).settled :=
      (bind_yields id bindingId request now b rfl announced).2
    rw [error_of_map failed] at outcome
    exact bound outcome
  | unbind id bindingId =>
    have outcome : Unbound b.settled id bindingId (answer (inMemory faulty details) b
        (.unbind id bindingId)) (perform (inMemory faulty details) b (.unbind id bindingId)).settled :=
      (unbind_yields id bindingId b rfl announced).2
    rw [failed] at outcome
    exact unbound outcome
  | refresh =>
    have outcome : Refreshed faulty b.settled (answer (inMemory faulty details) b .refresh)
        (perform (inMemory faulty details) b .refresh).settled :=
      (refresh_yields b rfl announced).2
    rw [failed] at outcome
    exact refreshed outcome

end Aborted

/-- An action that fails leaves all as it was, unless the Director did what it was told and the record
of that could not be saved. -/
theorem failed_action_undone (details : DirectorDetails) (networks : List String)
    (fails atOnce : Bool) (events : List (Event SimulatedDirector.Move)) {action : Action}
    {e : BrokerError} (noPoll : ∀ id operation, action ≠ .lastOperation id operation)
    (failed : answer (inMemory faulty details) (run (inMemory faulty details)
      SimulatedDirector.Move.apply (fresh networks (SimulatedDirector.idle fails atOnce)) events)
        action = .error e) :
    let b := run (inMemory faulty details) SimulatedDirector.Move.apply
      (fresh networks (SimulatedDirector.idle fails atOnce)) events
    Aborted details (Traced.SameNetworks networks events) b action
      (perform (inMemory faulty details) b action).settled :=
  .performed (run_breaks (fresh_breaks _ _ _)) (.run networks fails atOnce events)
    (.run networks fails atOnce events) (fun same => Traced.run same fails atOnce) noPoll failed

def unsaved : Broker (Director.Outages SimulatedDirector) (Store.Outages MemoryStore) :=
  run (inMemory faulty someDetails) SimulatedDirector.Move.apply
    (fresh ["net1"] (SimulatedDirector.idle false false)) [.storeBreaks .saveInstance 0]

theorem failed_action_undone_unsaved :
    let action := Action.provision "a" (orderOf .permissionless) true 0 firstDay
    let after := (perform (inMemory faulty someDetails) unsaved action).settled
    answer (inMemory faulty someDetails) unsaved action =
      .error (.dbSave "storage call failed: connection reset") ∧
    after.pool.orphans = [("fabric-a", "net1")] ∧
    Aborted someDetails (Traced.SameNetworks ["net1"] [.storeBreaks .saveInstance 0]) unsaved action
      after := by
  intro action after
  have failed : answer (inMemory faulty someDetails) unsaved action =
      .error (.dbSave "storage call failed: connection reset") := by rfl
  exact ⟨failed, by decide +kernel,
    failed_action_undone someDetails ["net1"] false false _ nofun failed⟩

end Broker

end LedgerBroker
