import LedgerBroker.Proofs.Bookkeeping

set_option autoImplicit false

namespace LedgerBroker

namespace Broker

open SimulatedDirector (faulty)

variable {details : DirectorDetails} {may : Store.CallKind → Prop}
  {w w' : Broker (Director.Outages SimulatedDirector) MemoryStore}
  {x : Director.Outages SimulatedDirector} {id : String}

structure Balanced (w : Broker (Director.Outages SimulatedDirector) MemoryStore) : Prop where
  unrecorded : ∀ o ∈ w.pool.orphans, ∀ i ∈ w.records.instances, i.deployment ≠ o.1
  unused : ∀ n ∈ w.pool.configured, (∀ i ∈ w.records.instances, i.network ≠ n) →
    (∀ o ∈ w.pool.orphans, o.2 ≠ n) → n ∈ w.pool.available

namespace Balanced

theorem start (networks : List String) (fails atOnce : Bool) :
    Balanced (fresh networks (SimulatedDirector.idle fails atOnce)).settled := by
  constructor <;> simp [fresh, Broker.start, NetworkPool.new]

theorem frame (h : Balanced w) (configured : w'.pool.configured = w.pool.configured)
    (available : ∀ n ∈ w.pool.available, n ∈ w'.pool.available)
    (orphans : w'.pool.orphans = w.pool.orphans)
    (deployments : ∀ i ∈ w'.records.instances,
      ∃ j ∈ w.records.instances, j.deployment = i.deployment)
    (networks : ∀ i ∈ w.records.instances, ∃ j ∈ w'.records.instances, j.network = i.network) :
    Balanced w' where
  unrecorded o mem i mem' := by
    rw [orphans] at mem
    obtain ⟨j, old, same⟩ := deployments i mem'
    exact same ▸ h.unrecorded o mem j old
  unused n mem unrecorded unheld := by
    rw [configured] at mem
    rw [orphans] at unheld
    refine available n (h.unused n mem (fun i mem' => ?_) unheld)
    obtain ⟨j, now, same⟩ := networks i mem'
    exact same ▸ unrecorded j now

theorem moved (h : Balanced w) (x : Director.Outages SimulatedDirector) :
    Balanced { w with director := x } := ⟨h.unrecorded, h.unused⟩

theorem provisioned (h : Balanced w) (tidy : Tidy w) (coherent : Coherent w) {request : Request}
    {choice : Nat} {now : Timestamp} {result : Except BrokerError String}
    (outcome : Provisioned faulty details may w id request choice now result w') :
    Balanced w' := by
  cases outcome with
  | refused => exact h
  | joined plan live resolved shared id_new recorded same =>
    refine h.frame rfl (fun _ now => now) rfl (fun i mem => ?_) (fun i mem => ?_)
    · rcases MemoryStore.mem_putInstance.mp mem with ⟨old, _⟩ | rfl
      · exact ⟨i, old, rfl⟩
      · exact ⟨live, recorded, same⟩
    · exact ⟨i, MemoryStore.mem_putInstance.mpr (.inl ⟨mem, id_new i mem⟩), rfl⟩
  | notStarted p e failed =>
    have was_free := (NetworkPool.acquire_ok p.acquired).1
    have unheld : w.pool.isHeld p.network = false := NetworkPool.not_isHeld_iff.mpr
      fun o mem same => coherent.withholds.orphans o mem (same ▸ was_free)
    -- The network goes back to where it was taken from, for no orphan holds it.
    refine h.frame ?_ (fun n now => ?_) ?_ (fun i mem => ⟨i, mem, rfl⟩) (fun i mem => ⟨i, mem, rfl⟩)
    · rw [NetworkPool.configured_release, NetworkPool.configured_acquire p.acquired]
    · exact (NetworkPool.mem_available_giveBack p.acquired (tidy.free _ was_free) unheld).mpr now
    · rw [NetworkPool.orphans_release, NetworkPool.orphans_acquire p.acquired]
  | unrecorded p task e started =>
    have orphans := NetworkPool.orphans_acquire p.acquired
    constructor
    · intro o mem i mem'
      rcases NetworkPool.mem_orphans_quarantine.mp mem with ⟨old, _⟩ | rfl
      · exact h.unrecorded o (orphans ▸ old) i mem'
      · exact p.deployment_new i mem'
    · intro n mem unrecorded unheld
      rw [NetworkPool.configured_quarantine, NetworkPool.configured_acquire p.acquired] at mem
      have held (o) (old : o ∈ w.pool.orphans) : o.2 ≠ n := by
        refine unheld o (NetworkPool.mem_orphans_quarantine.mpr (.inl ⟨orphans.symm ▸ old, ?_⟩))
        exact NetworkPool.ne_of_not_isOrphaned p.not_orphaned old
      -- The network that was taken is the new orphan's.
      have apart : n ≠ p.network :=
        (unheld _ (NetworkPool.mem_orphans_quarantine.mpr (.inr rfl))).symm
      have now := h.unused n mem unrecorded held
      exact NetworkPool.mem_available_quarantine.mpr
        ⟨(NetworkPool.mem_available_acquire p.acquired).mpr ⟨now, apart⟩, apart⟩
  | recorded p task started =>
    have orphans := NetworkPool.orphans_acquire p.acquired
    constructor
    · intro o mem i mem'
      have mem : o ∈ w.pool.orphans := orphans ▸ mem
      rcases MemoryStore.mem_putInstance.mp mem' with ⟨old, _⟩ | rfl
      · exact h.unrecorded o mem i old
      · exact (NetworkPool.ne_of_not_isOrphaned p.not_orphaned mem).symm
    · intro n mem unrecorded unheld
      rw [NetworkPool.configured_acquire p.acquired] at mem
      have others (i) (old : i ∈ w.records.instances) : i.network ≠ n :=
        unrecorded i (MemoryStore.mem_putInstance.mpr (.inl ⟨old, p.id_new i old⟩))
      have apart : n ≠ p.network :=
        (unrecorded _ (MemoryStore.mem_putInstance.mpr (.inr rfl))).symm
      have now := h.unused n mem others (fun o mem => unheld o (orphans.symm ▸ mem))
      exact (NetworkPool.mem_available_acquire p.acquired).mpr ⟨now, apart⟩

theorem deprovisioned (h : Balanced w) (tenancy : Tenancy w) {now : Timestamp}
    {result : Except BrokerError Deletion}
    (outcome : Deprovisioned faulty may w id now result w') : Balanced w' := by
  cases outcome with
  | unchanged | notDeleted | unmarked => exact h.moved _
  | left i other x asked found _ _ recorded another same =>
    have own := (MemoryStore.mem_of_find found).2
    have left := MemoryStore.mem_removeInstance.mpr ⟨recorded, own ▸ another⟩
    refine h.frame rfl (fun _ now => now) rfl (fun j now => ?_) (fun j old => ?_)
    · exact ⟨j, (MemoryStore.mem_removeInstance.mp now).1, rfl⟩
    · -- Whoever stays on the deployment is on its network as well.
      obtain ⟨k, left, _, on⟩ := tenancy.remain_left found left same j old
      exact ⟨k, left, on⟩
  | marked p x asked task deleted =>
    have mem := (MemoryStore.mem_of_find p.found).1
    refine h.frame rfl (fun _ now => now) rfl (fun j now => ?_) (fun j old => ?_)
    · rcases MemoryStore.mem_putInstance.mp now with ⟨old, _⟩ | rfl
      · exact ⟨j, old, rfl⟩
      · exact ⟨p.i, mem, rfl⟩
    · obtain ⟨k, marked, _, on⟩ := tenancy.remain_marked mem task.token now j old
      exact ⟨k, marked, on⟩

theorem completed (h : Balanced w) (tenancy : Tenancy w) (reads : ¬may .instances)
    {result : Except BrokerError Unit} (outcome : Completed may w id result w') :
    Balanced w' := by
  cases outcome with
  | failed | absent => exact h
  | stranded i e breaks => exact absurd breaks reads
  | shared i other found left same =>
    have mem := (MemoryStore.mem_of_find found).1
    have mem' := (MemoryStore.mem_removeInstance.mp left).1
    have same := (tenancy.agree other mem' i mem).network_iff.mp same
    refine h.frame rfl (fun _ now => now) rfl (fun j now => ?_) (fun j old => ?_)
    · exact ⟨j, (MemoryStore.mem_removeInstance.mp now).1, rfl⟩
    · obtain ⟨k, left, _, on⟩ := tenancy.remain_left found left same j old
      exact ⟨k, left, on⟩
  | freed i found =>
    constructor
    · intro o mem j now
      rw [NetworkPool.orphans_release] at mem
      exact h.unrecorded o mem j (MemoryStore.mem_removeInstance.mp now).1
    · intro n mem' unrecorded unheld
      rw [NetworkPool.configured_release] at mem'
      rw [NetworkPool.orphans_release] at unheld
      by_cases given : n = i.network
      · subst given
        exact NetworkPool.mem_available_release.mpr
          (.inr ⟨rfl, mem', NetworkPool.not_isHeld_iff.mpr unheld⟩)
      · -- Any other network is as free as it was, for the record that went had another one.
        refine NetworkPool.mem_available_release.mpr (.inl (h.unused n mem' (fun j old => ?_) unheld))
        by_cases going : j.id = id
        · obtain rfl := tenancy.eq_of_found old found going
          exact Ne.symm given
        · exact unrecorded j (MemoryStore.mem_removeInstance.mpr ⟨old, going⟩)

theorem refreshed (serves : w.director.service.Serves w.records.instances)
    (outcome : Refreshed faulty w (.ok ()) w') : Balanced w' := by
  cases outcome with
  | refreshed names orphans x asked listed survey =>
    refine ⟨fun o mem i mem' on => ?_, fun n mem unrecorded unheld => ?_⟩
    · have surveyed := (SimulatedDirector.mem_surveyed serves.listed listed survey).mp
        (NetworkPool.mem_orphans_refresh.mp mem).1
      exact surveyed.1 (List.mem_map.mpr ⟨i, mem', on⟩)
    · exact NetworkPool.mem_available_refresh.mpr ⟨mem, unrecorded, unheld⟩

theorem turn (h : Balanced w) (tidy : Tidy w) (coherent : Coherent w) (reads : ¬may .instances)
    {action : Action} (turn : Turn faulty details may w action w') : Balanced w' := by
  cases turn with
  | provision outcome => exact h.provisioned tidy coherent outcome
  | deprovision outcome => exact h.deprovisioned coherent.tenancy outcome
  | looked outcome =>
    obtain ⟨x, _, rfl⟩ := outcome.asked
    exact h.moved x
  | completed looked _ outcome =>
    obtain ⟨x, asked, rfl⟩ := looked.asked
    have same := SimulatedDirector.service_of_asked asked
    exact (h.moved x).completed (coherent.moved same).tenancy reads outcome
  | bind outcome => cases outcome <;> exact ⟨h.unrecorded, h.unused⟩
  | unbind outcome => cases outcome <;> exact ⟨h.unrecorded, h.unused⟩
  | @refresh result _ outcome =>
    cases result with
    | ok => exact refreshed coherent.serves outcome
    | error => cases outcome with | failed => exact h.moved _

theorem restarted (coherent : Coherent w) {networks : List String}
    (outcome : Refreshed faulty (Broker.start networks w.director w.records) (.ok ()) w') :
    Balanced w' :=
  refreshed (w := Broker.start networks w.director w.records) coherent.serves outcome

end Balanced

end Broker

end LedgerBroker
