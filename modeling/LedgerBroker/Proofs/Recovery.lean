import LedgerBroker.Proofs.Balance

set_option autoImplicit false

namespace LedgerBroker

section Lookup

variable {l l' : List (String × String)}

theorem lookup_eq_some_iff_mem (functional : ∀ a b c, (a, b) ∈ l → (a, c) ∈ l → b = c)
    {a b : String} : l.lookup a = some b ↔ (a, b) ∈ l := by
  induction l with
  | nil => simp
  | cons entry rest ih =>
    have ih := ih fun a b c mem mem' =>
      functional a b c (List.mem_cons_of_mem _ mem) (List.mem_cons_of_mem _ mem')
    rw [lookup_cons]
    by_cases same : a = entry.1
    · subst same
      rw [if_pos rfl]
      constructor
      · intro found
        obtain rfl := Option.some.inj found
        exact List.mem_cons_self
      · intro mem
        exact congrArg some (functional _ _ _ List.mem_cons_self mem)
    · have other : (a, b) ≠ entry := fun h => same (congrArg Prod.fst h)
      rw [if_neg same, ih]
      simp [other]

theorem lookup_congr (functional : ∀ a b c, (a, b) ∈ l → (a, c) ∈ l → b = c)
    (same : ∀ o, o ∈ l ↔ o ∈ l') (a : String) : l.lookup a = l'.lookup a := by
  have functional' : ∀ a b c, (a, b) ∈ l' → (a, c) ∈ l' → b = c := by
    intro a b c mem mem'
    exact functional a b c ((same _).mpr mem) ((same _).mpr mem')
  ext b
  rw [lookup_eq_some_iff_mem functional, lookup_eq_some_iff_mem functional', same]

end Lookup

def Store.CallKind.isWrite : Store.CallKind → Bool
  | .saveInstance | .deleteInstance | .saveBinding | .deleteBinding => true
  | .findInstance | .instances | .findBinding | .bindings => false

namespace NetworkPool

structure Same (p q : NetworkPool) : Prop where
  available : ∀ n, n ∈ p.available ↔ n ∈ q.available
  orphans : ∀ deployment, p.orphans.lookup deployment = q.orphans.lookup deployment

end NetworkPool

namespace Broker

open SimulatedDirector (faulty)

variable {details : DirectorDetails} {may : Store.CallKind → Prop} {networks : List String}
  {w w' : Broker (Director.Outages SimulatedDirector) MemoryStore}
  {x : Director.Outages SimulatedDirector} {id : String}

structure Accounted (w : Broker (Director.Outages SimulatedDirector) MemoryStore) : Prop where
  running : ∀ o ∈ w.pool.orphans, w.director.service.network? o.1 = some o.2
  unrecorded : ∀ o ∈ w.pool.orphans, ∀ i ∈ w.records.instances, i.deployment ≠ o.1
  unused : ∀ n ∈ w.pool.configured, (∀ i ∈ w.records.instances, i.network ≠ n) →
    (∀ o ∈ w.pool.orphans, o.2 ≠ n) → n ∈ w.pool.available

namespace Accounted

theorem start (networks : List String) (fails atOnce : Bool) :
    Accounted (fresh networks (SimulatedDirector.idle fails atOnce)).settled := by
  constructor <;> simp [fresh, Broker.start, NetworkPool.new]

theorem balanced (h : Accounted w) : Balanced w := ⟨h.unrecorded, h.unused⟩

theorem of_balanced (h : Balanced w)
    (running : ∀ o ∈ w.pool.orphans, w.director.service.network? o.1 = some o.2) : Accounted w :=
  ⟨running, h.unrecorded, h.unused⟩

theorem moved (h : Accounted w) (same : x.service = w.director.service) :
    Accounted { w with director := x } :=
  .of_balanced (h.balanced.moved x) fun o mem => same ▸ h.running o mem

theorem provisioned (h : Accounted w) (tidy : Tidy w) (coherent : Coherent w) {request : Request}
    {choice : Nat} {now : Timestamp} {result : Except BrokerError String}
    (outcome : Provisioned faulty details may w id request choice now result w') :
    Accounted w' := by
  have balanced := h.balanced.provisioned tidy coherent outcome
  -- A deployment that is put up is not that of an orphan, so that the orphans stay as they are.
  have elsewhere (p : Placement w id request choice) {task : Task}
      (started : ((faulty.createDeployment (p.manifest details)).exec w.director).1 = .ok task)
      (o : String × String) (mem : o ∈ p.pool.orphans) :
      ((faulty.createDeployment (p.manifest details)).exec w.director).2.service.network? o.1 =
        some o.2 := by
    rw [NetworkPool.orphans_acquire p.acquired] at mem
    rw [p.network_of_started started]
    exact (if_neg (NetworkPool.ne_of_not_isOrphaned p.not_orphaned mem)).trans (h.running o mem)
  cases outcome with
  | refused => exact h
  | joined => exact .of_balanced balanced h.running
  | notStarted p e failed =>
    have service := SimulatedDirector.service_of_not_created failed
    refine .of_balanced balanced fun o mem => ?_
    rw [NetworkPool.orphans_release, NetworkPool.orphans_acquire p.acquired] at mem
    exact service ▸ h.running o mem
  | unrecorded p task e started =>
    refine .of_balanced balanced fun o mem => ?_
    rcases NetworkPool.mem_orphans_quarantine.mp mem with ⟨old, _⟩ | rfl
    · exact elsewhere p started o old
    · exact (p.network_of_started started).trans (if_pos rfl)
  | recorded p task started => exact .of_balanced balanced (elsewhere p started)

theorem deprovisioned (h : Accounted w) (tenancy : Tenancy w) {now : Timestamp}
    {result : Except BrokerError Deletion}
    (outcome : Deprovisioned faulty may w id now result w') : Accounted w' := by
  have balanced := h.balanced.deprovisioned tenancy outcome
  -- The deployment that is deleted is that of an instance, and so that of no orphan.
  have elsewhere (p : Departure w id) {x : Director.Outages SimulatedDirector} {task : Task}
      (asked : faulty.Asked w.director x)
      (deleted : ((faulty.deleteDeployment p.i.deployment).exec x).1 = .ok task)
      (o : String × String) (mem : o ∈ w.pool.orphans) :
      ((faulty.deleteDeployment p.i.deployment).exec x).2.service.network? o.1 = some o.2 := by
    have apart := h.unrecorded o mem p.i (MemoryStore.mem_of_find p.found).1
    rw [SimulatedDirector.network_of_deleted deleted, if_neg apart.symm,
      SimulatedDirector.service_of_asked asked]
    exact h.running o mem
  cases outcome with
  | unchanged result x asked => exact h.moved (SimulatedDirector.service_of_asked asked)
  | notDeleted p x asked e failed =>
    exact h.moved ((SimulatedDirector.service_of_not_deleted failed).trans
      (SimulatedDirector.service_of_asked asked))
  | left i other x asked =>
    exact .of_balanced balanced fun o mem =>
      SimulatedDirector.service_of_asked asked ▸ h.running o mem
  | unmarked p x asked task deleted | marked p x asked task deleted =>
    exact .of_balanced balanced (elsewhere p asked deleted)

theorem completed (h : Accounted w) (tenancy : Tenancy w) (reads : ¬may .instances)
    {result : Except BrokerError Unit} (outcome : Completed may w id result w') :
    Accounted w' := by
  have balanced := h.balanced.completed tenancy reads outcome
  cases outcome with
  | failed | absent | stranded | shared => exact .of_balanced balanced h.running
  | freed i found =>
    refine .of_balanced balanced fun o mem => ?_
    rw [NetworkPool.orphans_release] at mem
    exact h.running o mem

theorem refreshed (serves : w.director.service.Serves w.records.instances)
    (outcome : Refreshed faulty w (.ok ()) w') : Accounted w' := by
  have balanced := Balanced.refreshed serves outcome
  cases outcome with
  | refreshed names orphans x asked listed survey =>
    refine .of_balanced balanced fun o mem => ?_
    have surveyed := (SimulatedDirector.mem_surveyed serves.listed listed survey).mp
      (NetworkPool.mem_orphans_refresh.mp mem).1
    exact SimulatedDirector.service_of_asked asked ▸ surveyed.2

theorem turn (h : Accounted w) (tidy : Tidy w) (coherent : Coherent w) (reads : ¬may .instances)
    {action : Action} (turn : Turn faulty details may w action w') : Accounted w' := by
  cases turn with
  | provision outcome => exact h.provisioned tidy coherent outcome
  | deprovision outcome => exact h.deprovisioned coherent.tenancy outcome
  | looked outcome =>
    obtain ⟨x, asked, rfl⟩ := outcome.asked
    exact h.moved (SimulatedDirector.service_of_asked asked)
  | completed looked _ outcome =>
    obtain ⟨x, asked, rfl⟩ := looked.asked
    have same := SimulatedDirector.service_of_asked asked
    exact (h.moved same).completed (coherent.moved same).tenancy reads outcome
  | bind outcome =>
    cases outcome with
    | refused e x asked => exact h.moved (SimulatedDirector.service_of_asked asked)
    | bound i task ips x asked =>
      have moved := h.moved (SimulatedDirector.service_of_asked asked)
      exact ⟨moved.running, moved.unrecorded, moved.unused⟩
  | unbind outcome =>
    cases outcome with
    | refused => exact h
    | unbound => exact ⟨h.running, h.unrecorded, h.unused⟩
  | @refresh result _ outcome =>
    cases result with
    | ok => exact refreshed coherent.serves outcome
    | error =>
      cases outcome with
      | failed e x asked => exact h.moved (SimulatedDirector.service_of_asked asked)

theorem restarted (coherent : Coherent w) {networks : List String}
    (outcome : Refreshed faulty (Broker.start networks w.director w.records) (.ok ()) w') :
    Accounted w' :=
  refreshed (w := Broker.start networks w.director w.records) coherent.serves outcome

theorem disturbed (h : Accounted w) {m : SimulatedDirector.Move}
    (spares : ∀ name, m ≠ .removeDeployment name) :
    Accounted { w with director := m.apply w.director } := by
  cases m with
  | setTaskState token state =>
    simp only [SimulatedDirector.Move.apply, SimulatedDirector.setTaskState]
    split
    · exact h.moved rfl
    · exact ⟨h.running, h.unrecorded, h.unused⟩
  | removeDeployment name => exact absurd rfl (spares name)
  | breaks | mends => exact h.moved rfl

end Accounted

structure Sound (networks : List String)
    (w : Broker (Director.Outages SimulatedDirector) MemoryStore) : Prop where
  coherent : Coherent w
  tidy : Tidy w
  traced : Traced networks w
  accounted : Accounted w

/-- Nobody but the broker removes a deployment, and every read of the store gets through. -/
structure Undisturbed (networks : List String) (events : List (Event SimulatedDirector.Move)) :
    Prop where
  networks : Traced.SameNetworks networks events
  deployments : ∀ name, .move (.removeDeployment name) ∉ events
  reads : ∀ kind after, .storeBreaks kind after ∈ events → kind.isWrite = true

namespace Sound

theorem start (networks : List String) (fails atOnce : Bool) :
    Sound networks (fresh networks (SimulatedDirector.idle fails atOnce)).settled :=
  ⟨.start networks fails atOnce, .start networks fails atOnce, .start networks fails atOnce,
    .start networks fails atOnce⟩

theorem moved (h : Sound networks w) (same : x.service = w.director.service) :
    Sound networks { w with director := x } :=
  ⟨h.coherent.moved same, h.tidy.moved x, h.traced.moved same, h.accounted.moved same⟩

theorem keeps {events : List (Event SimulatedDirector.Move)}
    (undisturbed : Undisturbed networks events) :
    Keeps faulty details (·.isWrite = true) SimulatedDirector.Move.apply events
      (Sound networks) where
  turn _ _ _ _ h turn := ⟨h.coherent.turn turn, h.tidy.turn h.coherent turn,
    h.traced.turn h.tidy h.coherent turn, h.accounted.turn h.tidy h.coherent nofun turn⟩
  restart w other _ mem h outcome := by
    obtain rfl := undisturbed.networks other mem
    exact ⟨h.coherent.restarted outcome, .restarted h.coherent outcome,
      h.traced.restarted h.coherent outcome, .restarted h.coherent outcome⟩
  move _ m mem h := ⟨h.coherent.disturbed m, h.tidy.moved _, h.traced.disturbed m,
    h.accounted.disturbed fun name same => undisturbed.deployments name (same ▸ mem)⟩
  breaks := undisturbed.reads

theorem rebuilt (h : Sound networks w) {pool : NetworkPool}
    (configured : pool.configured = w.pool.configured)
    (outcome : Refreshed faulty ⟨pool, w.director, w.records⟩ (.ok ()) w') :
    w.pool.Same w'.pool := by
  cases outcome with
  | refreshed names orphans x asked listed survey =>
    -- What is surveyed is just what the broker knew, whichever broker asks for it.
    have known (o : String × String) :
        o ∈ w.pool.orphans ↔ o ∈ (pool.refresh w.records.instances orphans).orphans := by
      have surveyed : o ∈ orphans ↔ o.1 ∉ w.records.instances.map (·.deployment) ∧
          w.director.service.network? o.1 = some o.2 :=
        SimulatedDirector.mem_surveyed h.coherent.serves.listed listed survey
      rw [NetworkPool.mem_orphans_refresh, surveyed, configured]
      constructor
      · intro mem
        have on := h.accounted.running o mem
        refine ⟨⟨fun recorded => ?_, on⟩, h.traced.placed _ _ on⟩
        obtain ⟨i, mem', on⟩ := List.mem_map.mp recorded
        exact h.accounted.unrecorded o mem i mem' on
      · rintro ⟨⟨unrecorded, on⟩, _⟩
        rcases h.traced.known _ _ on with recorded | orphan
        · exact absurd (List.mem_map.mpr recorded) unrecorded
        · exact orphan
    constructor
    · intro n
      rw [NetworkPool.mem_available_refresh, configured]
      constructor
      · intro free
        exact ⟨h.tidy.free n free, fun i mem same => h.coherent.tenancy.taken i mem (same ▸ free),
          fun o mem same => h.coherent.withholds.orphans o ((known o).mpr mem) (same ▸ free)⟩
      · rintro ⟨mem, unrecorded, unheld⟩
        exact h.accounted.unused n mem unrecorded (fun o mem => unheld o ((known o).mp mem))
    · -- No deployment is on two networks, so that the orphans are a map.
      refine lookup_congr (fun a b c mem mem' => ?_) known
      exact Option.some.inj ((h.accounted.running _ mem).symm.trans (h.accounted.running _ mem'))

end Sound

/-- A refresh of the broker, and one of a broker that takes over, find what the broker knows, and
they go through unless a call fails. -/
structure Recoverable (details : DirectorDetails) (networks : List String)
    (b : Broker (Director.Outages SimulatedDirector) (Store.Outages MemoryStore)) : Prop where
  refreshed : ∀ b', (refresh (inMemory faulty details)).exec b = (.ok (), b') → b.pool.Same b'.pool
  restarted : ∀ b', (refresh (inMemory faulty details)).exec
    (Broker.start networks b.director b.records) = (.ok (), b') → b.pool.Same b'.pool
  refreshes : ∃ b', (refresh (inMemory faulty details)).exec b.mended = (.ok (), b') ∧
      b.pool.Same b'.pool
  restarts : ∃ b', (refresh (inMemory faulty details)).exec
    (Broker.start networks b.mended.director b.mended.records) = (.ok (), b') ∧
      b.pool.Same b'.pool

theorem exec_unrecorded_mended (recorded names : List String)
    (b : Broker (Director.Outages SimulatedDirector) (Store.Outages MemoryStore)) :
    ∃ orphans, (unrecorded (inMemory faulty details) recorded names).exec b.mended =
      (.ok orphans, b.mended) := by
  induction names with
  | nil => exact ⟨[], rfl⟩
  | cons name rest ih =>
    obtain ⟨orphans, surveyed⟩ := ih
    have told : (Step.onDirector ((inMemory faulty details).director.network name)).exec b.mended =
        (.ok (b.director.service.network? name), b.mended) := rfl
    unfold unrecorded
    split
    next => exact ⟨orphans, surveyed⟩
    next =>
      rw [Call.exec_bind_ok told]
      cases b.director.service.network? name with
      | none => exact ⟨orphans, surveyed⟩
      | some network => exact ⟨_, Call.exec_bind_ok surveyed⟩

theorem exec_refresh_mended
    (b : Broker (Director.Outages SimulatedDirector) (Store.Outages MemoryStore)) :
    ∃ b', (refresh (inMemory faulty details)).exec b.mended = (.ok (), b') := by
  have listed : (Step.read ((inMemory faulty details).store.instances)).exec b.mended =
      (.ok b.records.service.instances, b.mended) := rfl
  have deployed : (Step.onDirector ((inMemory faulty details).director.deployments)).exec b.mended =
      (.ok (b.director.service.deployments.mergeSort (· ≤ ·)), b.mended) := rfl
  obtain ⟨orphans, surveyed⟩ := exec_unrecorded_mended
    (b.records.service.instances.map (·.deployment))
    (b.director.service.deployments.mergeSort (· ≤ ·)) b
  unfold refresh
  rw [Call.exec_bind_ok listed, Call.exec_bind_ok deployed, Call.exec_bind_ok surveyed]
  exact ⟨_, rfl⟩

namespace Sound

variable {b b' : Broker (Director.Outages SimulatedDirector) (Store.Outages MemoryStore)}

theorem same (h : Sound networks b.settled) (breaks : Store.Breaks may b.records)
    {pool : NetworkPool} (configured : pool.configured = b.pool.configured)
    (found : (refresh (inMemory faulty details)).exec { b with pool := pool } = (.ok (), b')) :
    b.pool.Same b'.pool := by
  have outcome : Refreshed faulty ⟨pool, b.director, b.records.service⟩
      ((refresh (inMemory faulty details)).exec { b with pool := pool }).1
      ((refresh (inMemory faulty details)).exec { b with pool := pool }).2.settled :=
    (refresh_yields { b with pool := pool } rfl breaks).2
  rw [found] at outcome
  exact h.rebuilt configured outcome

theorem run (details : DirectorDetails) {events : List (Event SimulatedDirector.Move)}
    (undisturbed : Undisturbed networks events) (fails atOnce : Bool) :
    let b := Broker.run (inMemory faulty details) SimulatedDirector.Move.apply
      (fresh networks (SimulatedDirector.idle fails atOnce)) events
    Store.Breaks (·.isWrite = true) b.records ∧ Sound networks b.settled :=
  run_keeps (keeps undisturbed) (fresh_breaks _ _ _) (start networks fails atOnce)

theorem recoverable (h : Sound networks b.settled) (breaks : Store.Breaks may b.records) :
    Recoverable details networks b := by
  have mended : Sound networks b.mended.settled := h.moved rfl
  have quiet : Store.Breaks may b.mended.records := fun _ mem => absurd mem List.not_mem_nil
  have configured : (NetworkPool.new networks).configured = b.pool.configured :=
    h.traced.configured.symm
  constructor
  · intro b' found
    exact h.same breaks rfl found
  · intro b' found
    exact h.same breaks configured found
  · obtain ⟨b', found⟩ := exec_refresh_mended b
    exact ⟨b', found, mended.same quiet rfl found⟩
  · obtain ⟨b', found⟩ := exec_refresh_mended { b with pool := .new networks }
    exact ⟨b', found, mended.same quiet configured found⟩

end Sound

/-- Along every run in which nothing is done behind the broker's back and every read of the store
gets through, the pool is what a refresh or a new broker would find. -/
theorem run_recoverable (details : DirectorDetails) (networks : List String) (fails atOnce : Bool)
    {events : List (Event SimulatedDirector.Move)} (undisturbed : Undisturbed networks events) :
    Recoverable details networks (run (inMemory faulty details) SimulatedDirector.Move.apply
      (fresh networks (SimulatedDirector.idle fails atOnce)) events) := by
  obtain ⟨breaks, sound⟩ := Sound.run details undisturbed fails atOnce
  exact sound.recoverable breaks

section Quarantine

def lostRecords : List (Event SimulatedDirector.Move) := [
  .storeBreaks .saveInstance 0,
  .act (.provision "a" (orderOf .permissionless) true 0 firstDay),
  .storeMends .saveInstance,
  .act (.provision "b" (orderOf .permissioned) true 0 firstDay),
  .move (.setTaskState "2" .done),
  .storeBreaks .saveInstance 0,
  .act (.deprovision "b" true firstDay)]

def afterLosses : Broker (Director.Outages SimulatedDirector) (Store.Outages MemoryStore) :=
  run (inMemory faulty someDetails) SimulatedDirector.Move.apply
    (fresh ["net1", "net2", "net3"] (SimulatedDirector.idle false false)) lostRecords

theorem run_recoverable_lostRecords :
    Undisturbed ["net1", "net2", "net3"] lostRecords ∧
      afterLosses.pool.orphans = [("fabric-a", "net1")] ∧ afterLosses.pool.available = ["net3"] ∧
      Recoverable someDetails ["net1", "net2", "net3"] afterLosses := by
  have undisturbed : Undisturbed ["net1", "net2", "net3"] lostRecords := by
    constructor
    · intro other mem
      simp [lostRecords] at mem
    · intro name mem
      simp [lostRecords] at mem
    · intro kind after mem
      simp only [lostRecords, List.mem_cons, Event.storeBreaks.injEq, reduceCtorEq, false_or,
        or_false, List.not_mem_nil] at mem
      rcases mem with ⟨rfl, _⟩ | ⟨rfl, _⟩ <;> rfl
  exact ⟨undisturbed, by decide +kernel, by decide +kernel,
    run_recoverable someDetails ["net1", "net2", "net3"] false false undisturbed⟩

end Quarantine

end Broker

end LedgerBroker
