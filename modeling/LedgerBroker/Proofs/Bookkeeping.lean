import LedgerBroker.Proofs.Exclusivity

set_option autoImplicit false

namespace LedgerBroker

namespace Broker

open SimulatedDirector (faulty)

variable {details : DirectorDetails} {may : Store.CallKind → Prop} {networks : List String}
  {w w' : Broker (Director.Outages SimulatedDirector) MemoryStore}
  {x : Director.Outages SimulatedDirector} {id : String}

structure Tidy (w : Broker (Director.Outages SimulatedDirector) MemoryStore) : Prop where
  free : ∀ n ∈ w.pool.available, n ∈ w.pool.configured
  unheld : ∀ o ∈ w.pool.orphans, ∀ i ∈ w.records.instances, o.2 ≠ i.network

namespace Tidy

theorem start (networks : List String) (fails atOnce : Bool) :
    Tidy (fresh networks (SimulatedDirector.idle fails atOnce)).settled := by
  constructor <;> simp [fresh, Broker.start, NetworkPool.new]

theorem frame (h : Tidy w) (configured : w'.pool.configured = w.pool.configured)
    (free : ∀ n ∈ w'.pool.available, n ∈ w.pool.configured)
    (orphans : w'.pool.orphans = w.pool.orphans)
    (recorded : ∀ i ∈ w'.records.instances, ∃ j ∈ w.records.instances, j.network = i.network) :
    Tidy w' where
  free n now := configured ▸ free n now
  unheld o mem i mem' := by
    obtain ⟨j, mem'', same⟩ := recorded i mem'
    rw [orphans] at mem
    exact same ▸ h.unheld o mem j mem''

theorem moved (h : Tidy w) (x : Director.Outages SimulatedDirector) :
    Tidy { w with director := x } :=
  h.frame rfl h.free rfl (fun i mem => ⟨i, mem, rfl⟩)

theorem provisioned (h : Tidy w) (coherent : Coherent w) {request : Request} {choice : Nat}
    {now : Timestamp} {result : Except BrokerError String}
    (outcome : Provisioned faulty details may w id request choice now result w') : Tidy w' := by
  cases outcome with
  | refused => exact h
  | joined plan live resolved shared id_new recorded =>
    refine h.frame rfl h.free rfl (fun i mem => ?_)
    rcases MemoryStore.mem_putInstance.mp mem with ⟨old, _⟩ | rfl
    · exact ⟨i, old, rfl⟩
    · exact ⟨live, recorded, rfl⟩
  | notStarted p e failed =>
    refine h.frame ?_ (fun n now => ?_) ?_ (fun i mem => ⟨i, mem, rfl⟩)
    · rw [NetworkPool.configured_release, NetworkPool.configured_acquire p.acquired]
    · exact h.free n (NetworkPool.mem_of_release_acquired p.acquired now)
    · rw [NetworkPool.orphans_release, NetworkPool.orphans_acquire p.acquired]
  | unrecorded p task e started =>
    have was_free := (NetworkPool.acquire_ok p.acquired).1
    constructor
    · intro n now
      have now := (NetworkPool.mem_available_quarantine.mp now).1
      have now := ((NetworkPool.mem_available_acquire p.acquired).mp now).1
      rw [NetworkPool.configured_quarantine, NetworkPool.configured_acquire p.acquired]
      exact h.free n now
    · intro o mem i mem'
      rcases NetworkPool.mem_orphans_quarantine.mp mem with ⟨old, _⟩ | rfl
      · rw [NetworkPool.orphans_acquire p.acquired] at old
        exact h.unheld o old i mem'
      -- The network of the new orphan was free, so that no instance had it.
      · intro same
        exact coherent.tenancy.taken i mem' (same ▸ was_free)
  | recorded p task started =>
    have was_free := (NetworkPool.acquire_ok p.acquired).1
    constructor
    · intro n now
      rw [NetworkPool.configured_acquire p.acquired]
      exact h.free n ((NetworkPool.mem_available_acquire p.acquired).mp now).1
    · intro o mem i mem'
      rw [NetworkPool.orphans_acquire p.acquired] at mem
      rcases MemoryStore.mem_putInstance.mp mem' with ⟨old, _⟩ | rfl
      · exact h.unheld o mem i old
      · intro same
        exact coherent.withholds.orphans o mem (same ▸ was_free)

theorem deprovisioned (h : Tidy w) {now : Timestamp} {result : Except BrokerError Deletion}
    (outcome : Deprovisioned faulty may w id now result w') : Tidy w' := by
  cases outcome with
  | unchanged | notDeleted | unmarked => exact h.moved _
  | left =>
    refine h.frame rfl h.free rfl (fun i mem => ?_)
    exact ⟨i, (MemoryStore.mem_removeInstance.mp mem).1, rfl⟩
  | marked p =>
    refine h.frame rfl h.free rfl (fun i mem => ?_)
    rcases MemoryStore.mem_putInstance.mp mem with ⟨old, _⟩ | rfl
    · exact ⟨i, old, rfl⟩
    · exact ⟨p.i, (MemoryStore.mem_of_find p.found).1, rfl⟩

theorem completed (h : Tidy w) {result : Except BrokerError Unit}
    (outcome : Completed may w id result w') : Tidy w' := by
  have recorded : ∀ i ∈ (w.records.removeInstance id).instances,
      ∃ j ∈ w.records.instances, j.network = i.network :=
    fun i mem => ⟨i, (MemoryStore.mem_removeInstance.mp mem).1, rfl⟩
  cases outcome with
  | failed | absent => exact h
  | stranded | shared => exact h.frame rfl h.free rfl recorded
  | freed i found =>
    refine h.frame NetworkPool.configured_release (fun n now => ?_) NetworkPool.orphans_release
      recorded
    rcases NetworkPool.mem_available_release.mp now with free | ⟨rfl, configured, _⟩
    · exact h.free n free
    · exact configured

theorem refreshed (serves : w.director.service.Serves w.records.instances)
    (outcome : Refreshed faulty w (.ok ()) w') : Tidy w' := by
  cases outcome with
  | refreshed names orphans x asked listed survey =>
    refine ⟨fun n now => (NetworkPool.mem_available_refresh.mp now).1, fun o mem i mem' same => ?_⟩
    have orphan := (NetworkPool.mem_orphans_refresh.mp mem).1
    obtain ⟨unrecorded, on⟩ :=
      (SimulatedDirector.mem_surveyed serves.listed listed survey).mp orphan
    -- A deployment on the network of an instance is the deployment of that instance.
    have tenant := serves.tenant i mem' o.1 (same ▸ on)
    exact unrecorded (List.mem_map.mpr ⟨i, mem', tenant.symm⟩)

theorem restarted (coherent : Coherent w) {networks : List String}
    (outcome : Refreshed faulty (Broker.start networks w.director w.records) (.ok ()) w') :
    Tidy w' :=
  refreshed (w := Broker.start networks w.director w.records) coherent.serves outcome

theorem turn (h : Tidy w) (coherent : Coherent w) {action : Action}
    (turn : Turn faulty details may w action w') : Tidy w' := by
  cases turn with
  | provision outcome => exact h.provisioned coherent outcome
  | deprovision outcome => exact h.deprovisioned outcome
  | looked outcome =>
    obtain ⟨x, _, rfl⟩ := outcome.asked
    exact h.moved x
  | completed looked _ outcome =>
    obtain ⟨x, _, rfl⟩ := looked.asked
    exact (h.moved x).completed outcome
  | bind outcome => cases outcome <;> exact ⟨h.free, h.unheld⟩
  | unbind outcome => cases outcome <;> exact ⟨h.free, h.unheld⟩
  | @refresh result _ outcome =>
    cases result with
    | ok => exact refreshed coherent.serves outcome
    | error => cases outcome with | failed => exact h.moved _

theorem keeps (events : List (Event SimulatedDirector.Move)) :
    Keeps faulty details (fun _ => True) SimulatedDirector.Move.apply events
      (fun w => Coherent w ∧ Tidy w) where
  turn _ _ _ _ h turn := ⟨h.1.turn turn, h.2.turn h.1 turn⟩
  restart _ _ _ _ h outcome := ⟨h.1.restarted outcome, restarted h.1 outcome⟩
  move _ m _ h := ⟨h.1.disturbed m, h.2.moved _⟩
  breaks _ _ _ := trivial

theorem run (networks : List String) (fails atOnce : Bool)
    (events : List (Event SimulatedDirector.Move)) :
    Tidy (Broker.run (inMemory faulty details) SimulatedDirector.Move.apply
      (fresh networks (SimulatedDirector.idle fails atOnce)) events).settled :=
  (run_keeps (keeps events) (fresh_breaks _ _ _)
    ⟨.start networks fails atOnce, .start networks fails atOnce⟩).2.2

end Tidy

structure Traced (networks : List String)
    (w : Broker (Director.Outages SimulatedDirector) MemoryStore) : Prop where
  configured : w.pool.configured = (NetworkPool.new networks).configured
  placed : ∀ name n, w.director.service.network? name = some n → n ∈ w.pool.configured
  known : ∀ name n, w.director.service.network? name = some n →
    (∃ i ∈ w.records.instances, i.deployment = name) ∨ (name, n) ∈ w.pool.orphans

namespace Traced

theorem start (networks : List String) (fails atOnce : Bool) :
    Traced networks (fresh networks (SimulatedDirector.idle fails atOnce)).settled := by
  constructor <;> simp [fresh, Broker.start, NetworkPool.new, SimulatedDirector.idle,
    SimulatedDirector.network?]

theorem shrink (h : Traced networks w) (configured : w'.pool.configured = w.pool.configured)
    (orphans : w'.pool.orphans = w.pool.orphans)
    (running : ∀ name n, w'.director.service.network? name = some n →
      w.director.service.network? name = some n)
    (recorded : ∀ i ∈ w.records.instances, ∀ n,
      w'.director.service.network? i.deployment = some n →
        ∃ j ∈ w'.records.instances, j.deployment = i.deployment) :
    Traced networks w' where
  configured := configured.trans h.configured
  placed name n on := configured ▸ h.placed name n (running name n on)
  known name n on := by
    rcases h.known name n (running name n on) with ⟨i, mem, rfl⟩ | orphan
    · exact .inl (recorded i mem n on)
    · exact .inr (orphans ▸ orphan)

theorem moved (h : Traced networks w) (same : x.service = w.director.service) :
    Traced networks { w with director := x } :=
  h.shrink rfl rfl (fun _ _ on => same ▸ on) (fun i mem _ _ => ⟨i, mem, rfl⟩)

theorem created (h : Traced networks w) (tidy : Tidy w) {request : Request} {choice : Nat}
    (p : Placement w id request choice) (configured : w'.pool.configured = w.pool.configured)
    (running : ∀ name, w'.director.service.network? name =
      if name = p.deployment then some p.network else w.director.service.network? name)
    (own : (∃ i ∈ w'.records.instances, i.deployment = p.deployment) ∨
      (p.deployment, p.network) ∈ w'.pool.orphans)
    (recorded : ∀ i ∈ w.records.instances, i ∈ w'.records.instances)
    (orphans : ∀ o ∈ w.pool.orphans, o ∈ w'.pool.orphans) : Traced networks w' where
  configured := configured.trans h.configured
  placed name n on := by
    rw [running] at on
    rw [configured]
    split at on
    next =>
      obtain rfl := Option.some.inj on
      exact tidy.free _ (NetworkPool.acquire_ok p.acquired).1
    next => exact h.placed name n on
  known name n on := by
    rw [running] at on
    split at on
    next same =>
      obtain rfl := Option.some.inj on
      exact same ▸ own
    next =>
      rcases h.known name n on with ⟨i, mem, same⟩ | orphan
      · exact .inl ⟨i, recorded i mem, same⟩
      · exact .inr (orphans _ orphan)

theorem provisioned (h : Traced networks w) (tidy : Tidy w) {request : Request} {choice : Nat}
    {now : Timestamp} {result : Except BrokerError String}
    (outcome : Provisioned faulty details may w id request choice now result w') :
    Traced networks w' := by
  -- A new record has a new id, so that it takes the place of no other.
  have stays {i j : Instance} (id_new : ∀ i ∈ w.records.instances, i.id ≠ j.id)
      (mem : i ∈ w.records.instances) : i ∈ (w.records.putInstance j).instances :=
    MemoryStore.mem_putInstance.mpr (.inl ⟨mem, id_new i mem⟩)
  cases outcome with
  | refused => exact h
  | joined plan live resolved shared id_new =>
    exact h.shrink rfl rfl (fun _ _ on => on) (fun i mem _ _ => ⟨i, stays id_new mem, rfl⟩)
  | notStarted p e failed =>
    have same := SimulatedDirector.service_of_not_created failed
    refine h.shrink ?_ ?_ (fun _ _ on => same ▸ on) (fun i mem _ _ => ⟨i, mem, rfl⟩)
    · rw [NetworkPool.configured_release, NetworkPool.configured_acquire p.acquired]
    · rw [NetworkPool.orphans_release, NetworkPool.orphans_acquire p.acquired]
  | unrecorded p task e started =>
    have configured : (p.pool.quarantine p.deployment p.network).configured = w.pool.configured :=
      NetworkPool.configured_quarantine.trans (NetworkPool.configured_acquire p.acquired)
    refine h.created tidy p configured (fun _ => p.network_of_started started)
      (.inr (NetworkPool.mem_orphans_quarantine.mpr (.inr rfl))) (fun _ mem => mem)
      (fun o mem => ?_)
    have apart := NetworkPool.ne_of_not_isOrphaned p.not_orphaned mem
    rw [← NetworkPool.orphans_acquire p.acquired] at mem
    exact NetworkPool.mem_orphans_quarantine.mpr (.inl ⟨mem, apart⟩)
  | recorded p task started =>
    have own : p.instance_ task now ∈ (w.records.putInstance (p.instance_ task now)).instances :=
      MemoryStore.mem_putInstance.mpr (.inr rfl)
    refine h.created tidy p (NetworkPool.configured_acquire p.acquired)
      (fun _ => p.network_of_started started) (.inl ⟨_, own, rfl⟩) (fun i mem => stays p.id_new mem)
      (fun o mem => ?_)
    exact (NetworkPool.orphans_acquire p.acquired).symm ▸ mem

theorem deprovisioned (h : Traced networks w) (tenancy : Tenancy w) {now : Timestamp}
    {result : Except BrokerError Deletion}
    (outcome : Deprovisioned faulty may w id now result w') : Traced networks w' := by
  have running {x : Director.Outages SimulatedDirector} {i : Instance} {task : Task}
      (asked : faulty.Asked w.director x)
      (deleted : ((faulty.deleteDeployment i.deployment).exec x).1 = .ok task)
      (name n : String) (on : ((faulty.deleteDeployment i.deployment).exec
        x).2.service.network? name = some n) : w.director.service.network? name = some n :=
    SimulatedDirector.service_of_asked asked ▸ SimulatedDirector.running_of_deleted deleted on
  cases outcome with
  | unchanged result x asked => exact h.moved (SimulatedDirector.service_of_asked asked)
  | notDeleted p x asked e failed =>
    exact h.moved ((SimulatedDirector.service_of_not_deleted failed).trans
      (SimulatedDirector.service_of_asked asked))
  | left i other x asked found _ _ recorded another same =>
    have own := (MemoryStore.mem_of_find found).2
    have left := MemoryStore.mem_removeInstance.mpr ⟨recorded, own ▸ another⟩
    refine h.shrink rfl rfl
      (fun _ _ on => SimulatedDirector.service_of_asked asked ▸ on) (fun j mem _ _ => ?_)
    obtain ⟨k, left, on, _⟩ := tenancy.remain_left found left same j mem
    exact ⟨k, left, on⟩
  | unmarked p x asked task deleted =>
    exact h.shrink rfl rfl (running asked deleted) (fun i mem _ _ => ⟨i, mem, rfl⟩)
  | marked p x asked task deleted =>
    have recorded := (MemoryStore.mem_of_find p.found).1
    refine h.shrink rfl rfl (running asked deleted) (fun j mem _ _ => ?_)
    obtain ⟨k, marked, on, _⟩ := tenancy.remain_marked recorded task.token now j mem
    exact ⟨k, marked, on⟩

theorem completed (h : Traced networks w) (coherent : Coherent w)
    (going : ∀ i, w.records.instances.find? (·.id = id) = some i → i.deprovisionTask ≠ none)
    {result : Except BrokerError Unit} (outcome : Completed may w id result w') :
    Traced networks w' := by
  -- The only record that goes is that of an instance whose deployment is gone already.
  have recorded {i : Instance} (found : w.records.instances.find? (·.id = id) = some i)
      (j : Instance) (mem' : j ∈ w.records.instances) (n : String)
      (on : w.director.service.network? j.deployment = some n) :
      ∃ k ∈ (w.records.removeInstance id).instances, k.deployment = j.deployment := by
    have other : j.id ≠ id := by
      intro same
      obtain rfl := coherent.tenancy.eq_of_found mem' found same
      exact nomatch on.symm.trans (coherent.serves.gone j mem' (going j found))
    exact ⟨j, MemoryStore.mem_removeInstance.mpr ⟨mem', other⟩, rfl⟩
  cases outcome with
  | failed | absent => exact h
  | stranded i _ _ found | shared i _ found =>
    exact h.shrink rfl rfl (fun _ _ on => on) (recorded found)
  | freed i found =>
    exact h.shrink NetworkPool.configured_release NetworkPool.orphans_release
      (fun _ _ on => on) (recorded found)

theorem refreshed (configured : w.pool.configured = (NetworkPool.new networks).configured)
    (serves : w.director.service.Serves w.records.instances)
    (placed : ∀ name n, w.director.service.network? name = some n → n ∈ w.pool.configured)
    (outcome : Refreshed faulty w (.ok ()) w') : Traced networks w' := by
  cases outcome with
  | refreshed names orphans x asked listed survey =>
    have same := SimulatedDirector.service_of_asked asked
    refine ⟨configured, fun name n on => placed name n (same ▸ on), fun name n on => ?_⟩
    rw [same] at on
    by_cases recorded : name ∈ w.records.instances.map (·.deployment)
    · exact .inl (List.mem_map.mp recorded)
    · have orphan := (SimulatedDirector.mem_surveyed serves.listed listed survey).mpr ⟨recorded, on⟩
      exact .inr (NetworkPool.mem_orphans_refresh.mpr ⟨orphan, placed name n on⟩)

theorem turn (h : Traced networks w) (tidy : Tidy w) (coherent : Coherent w) {action : Action}
    (turn : Turn faulty details may w action w') : Traced networks w' := by
  cases turn with
  | provision outcome => exact h.provisioned tidy outcome
  | deprovision outcome => exact h.deprovisioned coherent.tenancy outcome
  | looked outcome =>
    obtain ⟨x, asked, rfl⟩ := outcome.asked
    exact h.moved (SimulatedDirector.service_of_asked asked)
  | completed looked completes outcome =>
    obtain ⟨x, asked, rfl, going⟩ := looked.going completes
    have same := SimulatedDirector.service_of_asked asked
    exact (h.moved same).completed (coherent.moved same) going outcome
  | bind outcome =>
    cases outcome with
    | refused e x asked => exact h.moved (SimulatedDirector.service_of_asked asked)
    | bound i task ips x asked =>
      have moved := h.moved (SimulatedDirector.service_of_asked asked)
      exact ⟨moved.configured, moved.placed, moved.known⟩
  | unbind outcome =>
    cases outcome with
    | refused => exact h
    | unbound => exact ⟨h.configured, h.placed, h.known⟩
  | @refresh result _ outcome =>
    cases result with
    | ok => exact refreshed h.configured coherent.serves h.placed outcome
    | error =>
      cases outcome with
      | failed e x asked => exact h.moved (SimulatedDirector.service_of_asked asked)

/-- Every broker that takes over along the run has these networks. -/
def SameNetworks (networks : List String) (events : List (Event SimulatedDirector.Move)) : Prop :=
  ∀ other, .restart other ∈ events → other = networks

theorem restarted (h : Traced networks w) (coherent : Coherent w)
    (outcome : Refreshed faulty (Broker.start networks w.director w.records) (.ok ()) w') :
    Traced networks w' :=
  refreshed (w := Broker.start networks w.director w.records) rfl coherent.serves
    (fun name n on => h.configured ▸ h.placed name n on) outcome

theorem disturbed (h : Traced networks w) (m : SimulatedDirector.Move) :
    Traced networks { w with director := m.apply w.director } := by
  cases m with
  | setTaskState token state =>
    simp only [SimulatedDirector.Move.apply, SimulatedDirector.setTaskState]
    split
    · exact h.moved rfl
    · exact ⟨h.configured, h.placed, h.known⟩
  | removeDeployment name =>
    refine h.shrink rfl rfl (fun other n on => ?_) (fun i mem _ _ => ⟨i, mem, rfl⟩)
    simp only [SimulatedDirector.Move.apply, SimulatedDirector.network_removeDeployment] at on
    split at on
    · cases on
    · exact on
  | breaks | mends => exact h.moved rfl

theorem keeps {events : List (Event SimulatedDirector.Move)} (same : SameNetworks networks events) :
    Keeps faulty details (fun _ => True) SimulatedDirector.Move.apply events
      (fun w => Coherent w ∧ Tidy w ∧ Traced networks w) where
  turn _ _ _ _ h turn := ⟨h.1.turn turn, h.2.1.turn h.1 turn, h.2.2.turn h.2.1 h.1 turn⟩
  restart w other _ mem h outcome := by
    obtain rfl := same other mem
    exact ⟨h.1.restarted outcome, Tidy.restarted h.1 outcome, h.2.2.restarted h.1 outcome⟩
  move _ m _ h := ⟨h.1.disturbed m, h.2.1.moved _, h.2.2.disturbed m⟩
  breaks _ _ _ := trivial

theorem run {events : List (Event SimulatedDirector.Move)} (same : SameNetworks networks events)
    (fails atOnce : Bool) :
    Traced networks (Broker.run (inMemory faulty details) SimulatedDirector.Move.apply
      (fresh networks (SimulatedDirector.idle fails atOnce)) events).settled :=
  (run_keeps (keeps same) (fresh_breaks _ _ _)
    ⟨.start networks fails atOnce, .start networks fails atOnce, .start networks fails atOnce⟩).2.2.2

end Traced

end Broker

end LedgerBroker
