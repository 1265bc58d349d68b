import LedgerBroker.Proofs.SimulatedDirector
import LedgerBroker.Proofs.Tenancy

/-!
No network is given to two tenants. The records, the Director and the pool are kept apart from one
another and are changed one after another, so each pair of them has its own invariant: `Tenancy` ties
the records to the pool, `Serves` the Director to the records, and `Withholds` the pool to the
Director.
-/

set_option autoImplicit false

namespace LedgerBroker

namespace SimulatedDirector

structure Serves (s : SimulatedDirector) (instances : List Instance) : Prop where
  listed : ∀ name, name ∈ s.deployments ↔ ∃ n, s.network? name = some n
  apart : ∀ a b n, s.network? a = some n → s.network? b = some n → a = b
  own : ∀ i ∈ instances, ∀ n, s.network? i.deployment = some n → n = i.network
  tenant : ∀ i ∈ instances, ∀ name, s.network? name = some i.network → name = i.deployment
  gone : ∀ i ∈ instances, i.deprovisionTask ≠ none → s.network? i.deployment = none

namespace Serves

variable {s t : SimulatedDirector} {instances left : List Instance}

theorem congr (h : s.Serves instances) (deployments : t.deployments = s.deployments)
    (networks : t.networks = s.networks) : t.Serves instances := by
  have same (name : String) : t.network? name = s.network? name :=
    congrArg (List.lookup name) networks
  constructor
  · simpa only [deployments, same] using h.listed
  · simpa only [same] using h.apart
  · simpa only [same] using h.own
  · simpa only [same] using h.tenant
  · simpa only [same] using h.gone

theorem subset (h : s.Serves instances) (sub : ∀ i ∈ left, i ∈ instances) : s.Serves left where
  listed := h.listed
  apart := h.apart
  own i mem := h.own i (sub i mem)
  tenant i mem := h.tenant i (sub i mem)
  gone i mem := h.gone i (sub i mem)

theorem put {records : MemoryStore} {i : Instance} (h : s.Serves records.instances)
    (own : ∀ n, s.network? i.deployment = some n → n = i.network)
    (tenant : ∀ name, s.network? name = some i.network → name = i.deployment)
    (gone : i.deprovisionTask ≠ none → s.network? i.deployment = none) :
    s.Serves (records.putInstance i).instances where
  listed := h.listed
  apart := h.apart
  own j mem := by
    rcases MemoryStore.mem_putInstance.mp mem with ⟨old, _⟩ | rfl
    · exact h.own j old
    · exact own
  tenant j mem := by
    rcases MemoryStore.mem_putInstance.mp mem with ⟨old, _⟩ | rfl
    · exact h.tenant j old
    · exact tenant
  gone j mem := by
    rcases MemoryStore.mem_putInstance.mp mem with ⟨old, _⟩ | rfl
    · exact h.gone j old
    · exact gone

theorem remove (h : s.Serves instances) (name : String) :
    (s.removeDeployment name).Serves instances := by
  have kept {other n : String} (told : (s.removeDeployment name).network? other = some n) :
      s.network? other = some n := by
    rw [network_removeDeployment] at told
    split at told
    · cases told
    · exact told
  constructor
  · intro other
    rw [mem_removeDeployment, network_removeDeployment, h.listed]
    by_cases same : other = name <;> simp [same]
  · exact fun a b n on_a on_b => h.apart a b n (kept on_a) (kept on_b)
  · exact fun i mem n on => h.own i mem n (kept on)
  · exact fun i mem other on => h.tenant i mem other (kept on)
  · intro i mem going
    rw [network_removeDeployment, h.gone i mem going, ite_self]

theorem add (h : s.Serves instances) {m : Manifest} {network : String}
    (placed : m.networkName = some network) (unused : ∀ name, s.network? name ≠ some network)
    (unrecorded : ∀ i ∈ instances, i.deployment ≠ m.name)
    (untenanted : ∀ i ∈ instances, i.network ≠ network) :
    (s.addDeployment m).Serves instances := by
  have told (name : String) : (s.addDeployment m).network? name =
      if name = m.name then some network else s.network? name := network_addDeployment placed
  have kept {i : Instance} (mem : i ∈ instances) :
      (s.addDeployment m).network? i.deployment = s.network? i.deployment := by
    rw [told, if_neg (unrecorded i mem)]
  constructor
  · intro name
    rw [mem_addDeployment, told, h.listed]
    by_cases same : name = m.name <;> simp [same]
  · intro a b n on_a on_b
    rw [told] at on_a on_b
    -- Two old deployments were apart before, and nothing old is on the network of the new one.
    split at on_a <;> split at on_b
    next here there => rw [here, there]
    next => exact absurd (on_b.trans on_a.symm) (unused b)
    next => exact absurd (on_a.trans on_b.symm) (unused a)
    next => exact h.apart a b n on_a on_b
  · exact fun i mem n on => h.own i mem n (kept mem ▸ on)
  · intro i mem name on
    rw [told] at on
    split at on
    next => exact absurd (Option.some.inj on).symm (untenanted i mem)
    next => exact h.tenant i mem name on
  · exact fun i mem going => (kept mem).trans (h.gone i mem going)

variable {x : Director.Outages SimulatedDirector} {task : Task}

theorem created (h : x.service.Serves instances) {m : Manifest} {network : String}
    (placed : m.networkName = some network) (unused : ∀ name, x.service.network? name ≠ some network)
    (unrecorded : ∀ i ∈ instances, i.deployment ≠ m.name)
    (untenanted : ∀ i ∈ instances, i.network ≠ network)
    (created : ((faulty.createDeployment m).exec x).1 = .ok task) :
    ((faulty.createDeployment m).exec x).2.service.Serves instances := by
  obtain ⟨_, same⟩ := service_of_created created
  rw [same]
  exact (h.add placed unused unrecorded untenanted).congr rfl rfl

theorem deleted (h : x.service.Serves instances) {name : String}
    (deleted : ((faulty.deleteDeployment name).exec x).1 = .ok task) :
    ((faulty.deleteDeployment name).exec x).2.service.Serves instances := by
  obtain ⟨_, _, same⟩ := service_of_deleted deleted
  rw [same]
  exact (h.remove name).congr rfl rfl

end Serves

end SimulatedDirector

namespace NetworkPool

structure Withholds (p : NetworkPool) (s : SimulatedDirector) : Prop where
  orphans : ∀ o ∈ p.orphans, o.2 ∉ p.available
  running : ∀ name n, s.network? name = some n → n ∉ p.available

namespace Withholds

variable {p q : NetworkPool} {s t : SimulatedDirector} {n : String} {choice : Nat}

theorem shrink (h : p.Withholds s) (orphans : q.orphans = p.orphans)
    (free : ∀ n ∈ q.available, n ∈ p.available)
    (running : ∀ name n, t.network? name = some n → s.network? name = some n) :
    q.Withholds t where
  orphans o mem now := h.orphans o (orphans ▸ mem) (free _ now)
  running name n on now := h.running name n (running name n on) (free n now)

theorem create (h : p.Withholds s) (acquired : p.acquire choice = .ok (n, q)) {deployment : String}
    (running : ∀ name, t.network? name =
      if name = deployment then some n else s.network? name) : q.Withholds t where
  orphans o mem now := by
    rw [NetworkPool.orphans_acquire acquired] at mem
    exact h.orphans o mem ((NetworkPool.mem_available_acquire acquired).mp now).1
  running name m on now := by
    have ⟨free, apart⟩ := (NetworkPool.mem_available_acquire acquired).mp now
    rw [running] at on
    split at on
    next => exact apart (Option.some.inj on).symm
    next => exact h.running name m on free

theorem giveBack (h : p.Withholds s) (acquired : p.acquire choice = .ok (n, q)) :
    (q.release n).Withholds s :=
  h.shrink (NetworkPool.orphans_release.trans (NetworkPool.orphans_acquire acquired))
    (fun _ free => NetworkPool.mem_of_release_acquired acquired free) (fun _ _ on => on)

theorem quarantine (h : p.Withholds s) (deployment n : String) :
    (p.quarantine deployment n).Withholds s where
  orphans o mem now := by
    have ⟨free, apart⟩ := NetworkPool.mem_available_quarantine.mp now
    rcases NetworkPool.mem_orphans_quarantine.mp mem with ⟨old, _⟩ | rfl
    · exact h.orphans o old free
    · exact apart rfl
  running name m on now := h.running name m on (NetworkPool.mem_available_quarantine.mp now).1

theorem release (h : p.Withholds s) (unused : ∀ name, s.network? name ≠ some n) :
    (p.release n).Withholds s where
  orphans o mem now := by
    rw [NetworkPool.orphans_release] at mem
    rcases NetworkPool.mem_available_release.mp now with free | ⟨same, _, unheld⟩
    · exact h.orphans o mem free
    -- A network that an orphan holds is not given back.
    · have held := NetworkPool.isHeld_iff.mpr ⟨o, mem, same⟩
      exact nomatch held.symm.trans unheld
  running name m on now := by
    rcases NetworkPool.mem_available_release.mp now with free | ⟨rfl, _⟩
    · exact h.running name m on free
    · exact unused name on

end Withholds

end NetworkPool

namespace Broker

open SimulatedDirector (faulty)

structure Coherent (w : Broker (Director.Outages SimulatedDirector) MemoryStore) : Prop where
  tenancy : Tenancy w
  serves : w.director.service.Serves w.records.instances
  withholds : w.pool.Withholds w.director.service

namespace Coherent

variable {details : DirectorDetails} {may : Store.CallKind → Prop}
  {w w' : Broker (Director.Outages SimulatedDirector) MemoryStore}
  {x : Director.Outages SimulatedDirector} {id : String}

theorem start (networks : List String) (fails atOnce : Bool) :
    Coherent (fresh networks (SimulatedDirector.idle fails atOnce)).settled where
  tenancy := .start networks _
  serves := by
    constructor <;> simp [fresh, Broker.start, SimulatedDirector.idle, SimulatedDirector.network?]
  withholds := by
    constructor <;> simp [fresh, Broker.start, NetworkPool.new, SimulatedDirector.idle,
      SimulatedDirector.network?]

theorem moved (h : Coherent w) (same : x.service = w.director.service) :
    Coherent { w with director := x } where
  tenancy := h.tenancy.moved x
  serves := same ▸ h.serves
  withholds := same ▸ h.withholds

theorem provisioned (h : Coherent w) {request : Request} {choice : Nat} {now : Timestamp}
    {result : Except BrokerError String}
    (outcome : Provisioned faulty details may w id request choice now result w') :
    Coherent w' := by
  have tenancy := h.tenancy.provisioned outcome
  -- Nothing that is recorded or deployed is on the network that a new deployment is put on.
  have unused (p : Placement w id request choice) (name : String) :
      w.director.service.network? name ≠ some p.network := fun on =>
    h.withholds.running name p.network on (NetworkPool.acquire_ok p.acquired).1
  have created (p : Placement w id request choice) {task : Task}
      (started : ((faulty.createDeployment (p.manifest details)).exec
        w.director).1 = .ok task) :
      ((faulty.createDeployment (p.manifest details)).exec
        w.director).2.service.Serves w.records.instances := by
    refine h.serves.created (SimulatedDirector.networkName_render _ _ _ _) (unused p)
      p.deployment_new (fun i mem same => ?_) started
    exact h.tenancy.taken i mem (same ▸ (NetworkPool.acquire_ok p.acquired).1)
  cases outcome with
  | refused => exact h
  | joined plan live resolved shared id_new recorded same =>
    -- Nothing is put up: the new instance is where the live one is.
    refine ⟨tenancy, h.serves.put ?_ (fun name on => ?_) nofun, h.withholds⟩
    · exact fun n on => h.serves.own live recorded n (same ▸ on)
    · exact (h.serves.tenant live recorded name on).trans same
  | notStarted p e failed =>
    -- A creation that fails leaves no deployment, so that its network may go back.
    have same := SimulatedDirector.service_of_not_created failed
    exact ⟨tenancy, same ▸ h.serves, same ▸ h.withholds.giveBack p.acquired⟩
  | unrecorded p task e started =>
    -- The deployment is up without a record, and its network goes to an orphan.
    have withholds := h.withholds.create p.acquired fun _ => p.network_of_started started
    exact ⟨tenancy, created p started, withholds.quarantine _ _⟩
  | recorded p task started =>
    refine ⟨tenancy, (created p started).put (fun n on => ?_) (fun name on => ?_) nofun,
      h.withholds.create p.acquired fun _ => p.network_of_started started⟩
    · rw [p.network_of_started started] at on
      exact Option.some.inj (on.symm.trans (if_pos rfl))
    · rw [p.network_of_started started] at on
      split at on
      next named => exact named
      next => exact absurd on (unused p name)

theorem deprovisioned (h : Coherent w) {now : Timestamp} {result : Except BrokerError Deletion}
    (outcome : Deprovisioned faulty may w id now result w') : Coherent w' := by
  have tenancy := h.tenancy.deprovisioned outcome
  have asked {x} (asked : faulty.Asked w.director x) :=
    h.moved (SimulatedDirector.service_of_asked asked)
  cases outcome with
  | unchanged result x still => exact asked still
  | left =>
    refine ⟨tenancy, (asked ‹_›).serves.subset fun i mem => ?_, (asked ‹_›).withholds⟩
    exact (MemoryStore.mem_removeInstance.mp mem).1
  | notDeleted p x still e failed =>
    exact (asked still).moved (SimulatedDirector.service_of_not_deleted failed)
  | unmarked p x still task deleted e =>
    exact ⟨tenancy, (asked still).serves.deleted deleted,
      (asked still).withholds.shrink rfl (fun _ free => free)
        fun _ _ => SimulatedDirector.running_of_deleted deleted⟩
  | marked p x still task deleted =>
    have mem := (MemoryStore.mem_of_find p.found).1
    -- The mark is set only when the deployment is gone, which is what `gone` asks for.
    have gone : (((faulty.deleteDeployment p.i.deployment).exec x).2.service.network?
        p.i.deployment) = none := by
      rw [SimulatedDirector.network_of_deleted deleted, if_pos rfl]
    refine ⟨tenancy, ((asked still).serves.deleted deleted).put ?_ (fun name on => ?_)
      (fun _ => gone), (asked still).withholds.shrink rfl (fun _ free => free)
        fun _ _ => SimulatedDirector.running_of_deleted deleted⟩
    · exact fun n on => nomatch gone.symm.trans on
    · have on := SimulatedDirector.running_of_deleted deleted on
      exact (asked still).serves.tenant p.i mem name on

theorem completed (h : Coherent w) {result : Except BrokerError Unit}
    (going : ∀ i, w.records.instances.find? (·.id = id) = some i → i.deprovisionTask ≠ none)
    (outcome : Completed may w id result w') : Coherent w' := by
  have tenancy := h.tenancy.completed outcome
  have serves : w.director.service.Serves (w.records.removeInstance id).instances :=
    h.serves.subset fun i mem => (MemoryStore.mem_removeInstance.mp mem).1
  cases outcome with
  | failed | absent => exact h
  | stranded | shared => exact ⟨tenancy, serves, h.withholds⟩
  | freed i found =>
    refine ⟨tenancy, serves, h.withholds.release fun name on => ?_⟩
    have mem := (MemoryStore.mem_of_find found).1
    -- Only the instance's own deployment could be on its network, and that one is gone.
    obtain rfl := h.serves.tenant i mem name on
    exact nomatch on.symm.trans (h.serves.gone i mem (going i found))

theorem refreshed (h : w.director.service.Serves w.records.instances) (tenancy : Tenancy w')
    (outcome : Refreshed faulty w (.ok ()) w') : Coherent w' := by
  cases outcome with
  | refreshed names orphans x asked listed survey =>
    have same := SimulatedDirector.service_of_asked asked
    refine ⟨tenancy, same ▸ h, fun o mem now => ?_, fun name n on now => ?_⟩
    · exact (NetworkPool.mem_available_refresh.mp now).2.2 o mem rfl
    rw [same] at on
    have ⟨configured, unrecorded, unorphaned⟩ := NetworkPool.mem_available_refresh.mp now
    -- A deployment that no instance records was asked for its network and is kept as an orphan.
    by_cases recorded : name ∈ w.records.instances.map (·.deployment)
    · obtain ⟨i, mem, rfl⟩ := List.mem_map.mp recorded
      exact unrecorded i mem (h.own i mem n on).symm
    · have orphan := (SimulatedDirector.mem_surveyed h.listed listed survey).mpr ⟨recorded, on⟩
      exact unorphaned _ (NetworkPool.mem_orphans_refresh.mpr ⟨orphan, configured⟩) rfl

theorem turn (h : Coherent w) {action : Action} (turn : Turn faulty details may w action w') :
    Coherent w' := by
  have tenancy := h.tenancy.turn turn
  cases turn with
  | provision outcome => exact h.provisioned outcome
  | deprovision outcome => exact h.deprovisioned outcome
  | looked outcome =>
    obtain ⟨x, asked, rfl⟩ := outcome.asked
    exact h.moved (SimulatedDirector.service_of_asked asked)
  | completed looked completes outcome =>
    obtain ⟨x, asked, rfl, going⟩ := looked.going completes
    exact (h.moved (SimulatedDirector.service_of_asked asked)).completed going outcome
  | bind outcome =>
    cases outcome with
    | refused e x asked => exact h.moved (SimulatedDirector.service_of_asked asked)
    | bound i task ips x asked =>
      have moved := h.moved (SimulatedDirector.service_of_asked asked)
      exact ⟨tenancy, moved.serves, moved.withholds⟩
  | unbind outcome =>
    cases outcome with
    | refused => exact h
    | unbound => exact ⟨tenancy, h.serves, h.withholds⟩
  | @refresh result _ outcome =>
    cases result with
    | ok => exact refreshed h.serves tenancy outcome
    | error =>
      cases outcome with
      | failed e x asked => exact h.moved (SimulatedDirector.service_of_asked asked)

theorem removed (h : Coherent w) (name : String) :
    Coherent { w with director := ⟨w.director.service.removeDeployment name, x.outages⟩ } where
  tenancy := h.tenancy.moved _
  serves := h.serves.remove name
  withholds := by
    refine h.withholds.shrink rfl (fun _ free => free) fun other n on => ?_
    rw [SimulatedDirector.network_removeDeployment] at on
    split at on
    · cases on
    · exact on

theorem relabelled (h : Coherent w) (token : String) (state : TaskState) :
    Coherent { w with director := ⟨w.director.service.setTaskState token state, x.outages⟩ } := by
  unfold SimulatedDirector.setTaskState
  split
  · exact h.moved rfl
  · exact ⟨h.tenancy.moved _, h.serves.congr rfl rfl,
      h.withholds.shrink rfl (fun _ free => free) (fun _ _ on => on)⟩

theorem restarted (h : Coherent w) {networks : List String}
    (outcome : Refreshed faulty (Broker.start networks w.director w.records) (.ok ()) w') :
    Coherent w' :=
  refreshed (w := Broker.start networks w.director w.records) h.serves (h.tenancy.restart outcome)
    outcome

theorem disturbed (h : Coherent w) (m : SimulatedDirector.Move) :
    Coherent { w with director := m.apply w.director } := by
  cases m with
  | setTaskState token state => exact h.relabelled token state
  | removeDeployment name => exact h.removed name
  | breaks | mends => exact h.moved rfl

theorem keeps (events : List (Event SimulatedDirector.Move)) :
    Keeps faulty details (fun _ => True) SimulatedDirector.Move.apply events Coherent where
  turn _ _ _ _ h turn := h.turn turn
  restart _ _ _ _ h outcome := h.restarted outcome
  move _ m _ h := h.disturbed m
  breaks _ _ _ := trivial

theorem run (networks : List String) (fails atOnce : Bool)
    (events : List (Event SimulatedDirector.Move)) :
    Coherent (Broker.run (inMemory faulty details) SimulatedDirector.Move.apply
      (fresh networks (SimulatedDirector.idle fails atOnce)) events).settled :=
  (run_keeps (keeps events) (fresh_breaks _ _ _) (start networks fails atOnce)).2

end Coherent

/-- No network has two tenants, and no network that has one is free. -/
structure Exclusive (w : Broker (Director.Outages SimulatedDirector) MemoryStore) : Prop where
  deployments_apart : ∀ a ∈ w.director.service.deployments, ∀ b ∈ w.director.service.deployments,
    a ≠ b → w.director.service.network? a ≠ w.director.service.network? b
  instances_agree : ∀ i ∈ w.records.instances, ∀ j ∈ w.records.instances, i.Agree j
  recorded_taken : ∀ i ∈ w.records.instances, i.network ∉ w.pool.available
  orphaned_taken : ∀ o ∈ w.pool.orphans, o.2 ∉ w.pool.available
  deployed_taken : ∀ a ∈ w.director.service.deployments, ∀ n,
    w.director.service.network? a = some n → n ∉ w.pool.available

theorem Coherent.exclusive {w : Broker (Director.Outages SimulatedDirector) MemoryStore}
    (h : Coherent w) : Exclusive w where
  deployments_apart a mem b _ apart same := by
    obtain ⟨n, on⟩ := (h.serves.listed a).mp mem
    exact apart (h.serves.apart a b n on (same ▸ on))
  instances_agree := h.tenancy.agree
  recorded_taken := h.tenancy.taken
  orphaned_taken := h.withholds.orphans
  deployed_taken a _ n on := h.withholds.running a n on

/-- Every network has one tenant or is free. -/
theorem run_exclusive (details : DirectorDetails) (networks : List String) (fails atOnce : Bool)
    (events : List (Event SimulatedDirector.Move)) :
    Exclusive (run (inMemory faulty details) SimulatedDirector.Move.apply
      (fresh networks (SimulatedDirector.idle fails atOnce)) events).settled :=
  (Coherent.run networks fails atOnce events).exclusive

end Broker

end LedgerBroker
