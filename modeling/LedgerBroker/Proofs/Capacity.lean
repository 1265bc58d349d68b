import LedgerBroker.Proofs.OperationTokens
import LedgerBroker.Proofs.Recovery
import Mathlib.Data.Finset.Card

set_option autoImplicit false

namespace LedgerBroker

namespace Broker

open Step
open SimulatedDirector (faulty Starts Numbered)

variable {details : DirectorDetails} {may : Store.CallKind → Prop} {networks : List String}
  {w w' : Broker (Director.Outages SimulatedDirector) MemoryStore} {id : String}

structure Apart (w : Broker (Director.Outages SimulatedDirector) MemoryStore) : Prop where
  named : ∀ o ∈ w.pool.orphans, ∀ o' ∈ w.pool.orphans, o.1 = o'.1 ↔ o.2 = o'.2
  placed : ∀ o ∈ w.pool.orphans, o.2 ∈ w.pool.configured

namespace Apart

theorem frame (h : Apart w) (configured : w'.pool.configured = w.pool.configured)
    (orphans : w'.pool.orphans = w.pool.orphans) : Apart w' :=
  ⟨by rw [orphans]; exact h.named, by rw [orphans, configured]; exact h.placed⟩

theorem provisioned (h : Apart w) (tidy : Tidy w) (coherent : Coherent w) {request : Request}
    {choice : Nat} {now : Timestamp} {result : Except BrokerError String}
    (outcome : Provisioned faulty details may w id request choice now result w') : Apart w' := by
  cases outcome with
  | refused => exact h
  | joined => exact h.frame rfl rfl
  | notStarted p =>
    refine h.frame ?_ ?_
    · rw [NetworkPool.configured_release, NetworkPool.configured_acquire p.acquired]
    · rw [NetworkPool.orphans_release, NetworkPool.orphans_acquire p.acquired]
  | recorded p =>
    exact h.frame (NetworkPool.configured_acquire p.acquired)
      (NetworkPool.orphans_acquire p.acquired)
  | unrecorded p =>
    have was_free := (NetworkPool.acquire_ok p.acquired).1
    have orphans := NetworkPool.orphans_acquire p.acquired
    -- The new orphan has a name that no orphan had, on a network that none held.
    have other (o : String × String) (old : o ∈ p.pool.orphans) :
        o.1 ≠ p.deployment ∧ o.2 ≠ p.network := by
      rw [orphans] at old
      exact ⟨NetworkPool.ne_of_not_isOrphaned p.not_orphaned old,
        fun same => coherent.withholds.orphans o old (same ▸ was_free)⟩
    constructor
    · intro o mem o' mem'
      rcases NetworkPool.mem_orphans_quarantine.mp mem with ⟨old, _⟩ | rfl <;>
        rcases NetworkPool.mem_orphans_quarantine.mp mem' with ⟨old', _⟩ | rfl
      · exact h.named o (orphans ▸ old) o' (orphans ▸ old')
      · exact ⟨fun same => absurd same (other o old).1, fun same => absurd same (other o old).2⟩
      · exact ⟨fun same => absurd same.symm (other o' old').1,
          fun same => absurd same.symm (other o' old').2⟩
      · exact Iff.rfl.trans (by simp)
    · intro o mem
      change o.2 ∈ p.pool.configured
      rw [NetworkPool.configured_acquire p.acquired]
      rcases NetworkPool.mem_orphans_quarantine.mp mem with ⟨old, _⟩ | rfl
      · exact h.placed o (orphans ▸ old)
      · exact tidy.free _ was_free

theorem refreshed (serves : w.director.service.Serves w.records.instances)
    (outcome : Refreshed faulty w (.ok ()) w') : Apart w' := by
  cases outcome with
  | refreshed names orphans x asked listed survey =>
    have on (o : String × String)
        (mem : o ∈ (w.pool.refresh w.records.instances orphans).orphans) :
        w.director.service.network? o.1 = some o.2 :=
      ((SimulatedDirector.mem_surveyed serves.listed listed survey).mp
        (NetworkPool.mem_orphans_refresh.mp mem).1).2
    refine ⟨fun o mem o' mem' => ⟨fun same => ?_, fun same => ?_⟩,
      fun o mem => (NetworkPool.mem_orphans_refresh.mp mem).2⟩
    · exact Option.some.inj ((on o mem).symm.trans (same ▸ on o' mem'))
    · exact serves.apart _ _ _ (on o mem) (same ▸ on o' mem')

theorem turn (h : Apart w) (tidy : Tidy w) (coherent : Coherent w) {action : Action}
    (turn : Turn faulty details may w action w') : Apart w' := by
  cases turn with
  | provision outcome => exact h.provisioned tidy coherent outcome
  | deprovision outcome => cases outcome <;> exact h.frame rfl rfl
  | looked outcome =>
    obtain ⟨x, _, rfl⟩ := outcome.asked
    exact h.frame rfl rfl
  | completed looked _ outcome =>
    obtain ⟨x, _, rfl⟩ := looked.asked
    cases outcome with
    | failed | absent | stranded | shared => exact h.frame rfl rfl
    | freed => exact h.frame NetworkPool.configured_release NetworkPool.orphans_release
  | bind outcome => cases outcome <;> exact h.frame rfl rfl
  | unbind outcome => cases outcome <;> exact h.frame rfl rfl
  | @refresh result _ outcome =>
    cases result with
    | ok => exact refreshed coherent.serves outcome
    | error => cases outcome with | failed => exact h.frame rfl rfl

end Apart

structure Stocked (networks : List String)
    (w : Broker (Director.Outages SimulatedDirector) MemoryStore) : Prop where
  orderly : Orderly networks w
  balanced : Balanced w
  apart : Apart w
  numbered : Numbered w.director.service

/-- Brokers that take over have the same networks, and every read of the store gets through. -/
structure Readable (networks : List String) (events : List (Event SimulatedDirector.Move)) :
    Prop where
  networks : Traced.SameNetworks networks events
  reads : ∀ kind after, .storeBreaks kind after ∈ events → kind.isWrite = true

namespace Stocked

theorem start (networks : List String) (fails atOnce : Bool) :
    Stocked networks (fresh networks (SimulatedDirector.idle fails atOnce)).settled where
  orderly := .start networks fails atOnce
  balanced := .start networks fails atOnce
  apart := ⟨fun _ mem => absurd mem List.not_mem_nil, fun _ mem => absurd mem List.not_mem_nil⟩
  numbered := ⟨rfl, rfl⟩

theorem moved (h : Stocked networks w) {x : Director.Outages SimulatedDirector}
    (same : x.service = w.director.service) : Stocked networks { w with director := x } :=
  ⟨h.orderly.moved same, h.balanced.moved x, h.apart.frame rfl rfl, same ▸ h.numbered⟩

theorem keeps {events : List (Event SimulatedDirector.Move)} (readable : Readable networks events) :
    Keeps faulty details (·.isWrite = true) SimulatedDirector.Move.apply events
      (Stocked networks) where
  turn _ _ _ _ h turn := ⟨h.orderly.turn turn,
    h.balanced.turn h.orderly.tidy h.orderly.coherent nofun turn,
    h.apart.turn h.orderly.tidy h.orderly.coherent turn,
    h.numbered.progress turn.issues.progress⟩
  restart w other w' mem h outcome := by
    obtain rfl := readable.networks other mem
    have change : Change faulty details (·.isWrite = true) w SimulatedDirector.Move.apply
        (.restart other) w' := .restarted outcome
    exact ⟨h.orderly.restarted outcome, .restarted h.orderly.coherent outcome,
      .refreshed (w := Broker.start other w.director w.records) h.orderly.coherent.serves outcome,
      h.numbered.progress change.issues.progress⟩
  move w m _ h := by
    have change : Change faulty details (·.isWrite = true) w SimulatedDirector.Move.apply (.move m)
        { w with director := m.apply w.director } := .moved m
    exact ⟨h.orderly.disturbed m, h.balanced.moved _, h.apart.frame rfl rfl,
      h.numbered.progress change.issues.progress⟩
  breaks := readable.reads

end Stocked

def knownNames (w : Broker (Director.Outages SimulatedDirector) MemoryStore) : Finset String :=
  (w.records.instances.map (·.deployment) ++ w.pool.orphans.map (·.1)).toFinset

def holdings (w : Broker (Director.Outages SimulatedDirector) MemoryStore) :
    Finset (String × String) :=
  (w.records.instances.map (fun i => (i.deployment, i.network)) ++ w.pool.orphans).toFinset

theorem mem_holdings {h : String × String} :
    h ∈ holdings w ↔ (∃ i ∈ w.records.instances, (i.deployment, i.network) = h) ∨
      h ∈ w.pool.orphans := by
  simp [holdings]

theorem knownNames_eq : knownNames w = (holdings w).image Prod.fst := by
  ext name
  simp [knownNames, holdings, or_and_right, exists_or]

namespace Stocked

theorem paired (h : Stocked networks w) :
    ∀ a ∈ holdings w, ∀ b ∈ holdings w, a.1 = b.1 ↔ a.2 = b.2 := by
  have tenancy := h.orderly.coherent.tenancy
  have foreign (i : Instance) (mem : i ∈ w.records.instances) (o : String × String)
      (orphan : o ∈ w.pool.orphans) : i.deployment ≠ o.1 ∧ i.network ≠ o.2 :=
    ⟨h.balanced.unrecorded o orphan i mem, (h.orderly.tidy.unheld o orphan i mem).symm⟩
  intro a mem b mem'
  rcases mem_holdings.mp mem with ⟨i, recorded, rfl⟩ | orphan <;>
    rcases mem_holdings.mp mem' with ⟨j, recorded', rfl⟩ | orphan'
  · exact (tenancy.agree i recorded j recorded').network_iff.symm
  · have apart := foreign i recorded b orphan'
    exact ⟨fun same => absurd same apart.1, fun same => absurd same apart.2⟩
  · have apart := foreign j recorded' a orphan
    exact ⟨fun same => absurd same.symm apart.1, fun same => absurd same.symm apart.2⟩
  · exact h.apart.named a orphan b orphan'

theorem mem_networks (h : Stocked networks w) {n : String} :
    n ∈ (holdings w).image Prod.snd ↔ n ∈ w.pool.configured ∧ n ∉ w.pool.available := by
  rw [Finset.mem_image]
  constructor
  · rintro ⟨a, mem, rfl⟩
    rcases mem_holdings.mp mem with ⟨i, recorded, rfl⟩ | orphan
    · exact ⟨h.orderly.network_configured recorded, h.orderly.coherent.tenancy.taken i recorded⟩
    · exact ⟨h.apart.placed a orphan, h.orderly.coherent.withholds.orphans a orphan⟩
  · rintro ⟨configured, taken⟩
    by_contra free
    refine taken (h.balanced.unused n configured (fun i recorded same => ?_) fun o orphan same => ?_)
    · exact free ⟨_, mem_holdings.mpr (.inl ⟨i, recorded, rfl⟩), same⟩
    · exact free ⟨o, mem_holdings.mpr (.inr orphan), same⟩

theorem configured (h : Stocked networks w) {n : String} :
    n ∈ w.pool.configured ↔ n ∈ networks := by
  rw [h.orderly.traced.configured]
  simp [NetworkPool.new]

theorem card_names (h : Stocked networks w) :
    (knownNames w).card + w.pool.available.toFinset.card = networks.toFinset.card := by
  have byName : Set.InjOn Prod.fst (holdings w : Set (String × String)) := fun a mem b mem' same =>
    Prod.ext same ((h.paired a mem b mem').mp same)
  have byNetwork : Set.InjOn Prod.snd (holdings w : Set (String × String)) :=
    fun a mem b mem' same => Prod.ext ((h.paired a mem b mem').mpr same) same
  -- Counted by network, the holdings are the networks that are taken.
  have all : networks.toFinset = (holdings w).image Prod.snd ∪ w.pool.available.toFinset := by
    ext n
    rw [Finset.mem_union, h.mem_networks, List.mem_toFinset, List.mem_toFinset, ← h.configured]
    have free := h.orderly.tidy.free n
    tauto
  have disjoint : Disjoint ((holdings w).image Prod.snd) w.pool.available.toFinset :=
    Finset.disjoint_left.mpr fun n used free =>
      (h.mem_networks.mp used).2 (List.mem_toFinset.mp free)
  rw [knownNames_eq, Finset.card_image_of_injOn byName, ← Finset.card_image_of_injOn byNetwork, all,
    Finset.card_union_of_disjoint disjoint]

theorem card_lt_iff (h : Stocked networks w) :
    (knownNames w).card < networks.toFinset.card ↔ w.pool.available ≠ [] := by
  have count := h.card_names
  have positive : 0 < w.pool.available.toFinset.card ↔ w.pool.available ≠ [] := by
    rw [Finset.card_pos, List.toFinset_nonempty_iff]
  rw [← positive]
  omega

end Stocked

def Live (w : Broker (Director.Outages SimulatedDirector) MemoryStore) (deployment : String) :
    Prop :=
  ∃ i ∈ w.records.instances, i.deployment = deployment ∧ i.deprovisionTask = none

/-- The name of the deployment is not in use, and fewer names are than there are networks. -/
structure Room (networks : List String)
    (w : Broker (Director.Outages SimulatedDirector) MemoryStore) (deployment : String) : Prop where
  unrecorded : ∀ i ∈ w.records.instances, i.deployment ≠ deployment
  unheld : ∀ o ∈ w.pool.orphans, o.1 ≠ deployment
  left : (knownNames w).card < networks.toFinset.card

def Admits (networks : List String)
    (w : Broker (Director.Outages SimulatedDirector) MemoryStore) (id : String)
    (request : Request) : Prop :=
  ∃ plan, Plan.resolve? request.serviceId request.planId = some plan ∧
    (∀ i ∈ w.records.instances, i.id ≠ id) ∧
      (plan.isShared = true ∧ Live w (plan.deployment id) ∨ Room networks w (plan.deployment id))

theorem Admits.of_resolved {request : Request} {plan : Plan} (fit : Admits networks w id request)
    (resolved : Plan.resolve? request.serviceId request.planId = some plan) :
    (∀ i ∈ w.records.instances, i.id ≠ id) ∧
      (plan.isShared = true ∧ Live w (plan.deployment id) ∨
        Room networks w (plan.deployment id)) := by
  obtain ⟨plan', resolved', fit⟩ := fit
  obtain rfl := Option.some.inj (resolved.symm.trans resolved')
  exact fit

inductive CallFailed : Except BrokerError String → Prop
  | create (cause : String) : CallFailed (.error (.boshConnect cause))
  | save (cause : String) : CallFailed (.error (.dbSave cause))

inductive Decided (networks : List String)
    (w : Broker (Director.Outages SimulatedDirector) MemoryStore) (id : String)
    (request : Request) : Except BrokerError String → Prop
  | refused (e : BrokerError) (answered : ¬CallFailed (.error e))
      (unfit : ¬Admits networks w id request) : Decided networks w id request (.error e)
  | failed (result : Except BrokerError String) (call : CallFailed result)
      (why : w.director.service.failsCreations = true ∨ id = "" ∨ "" ∈ networks) :
      Decided networks w id request result
  | provided (token : String) (fit : Admits networks w id request) :
      Decided networks w id request (.ok token)

def Found (w : Broker (Director.Outages SimulatedDirector) MemoryStore) (deployment : String) :
    Except BrokerError (Option Instance) → Prop
  | .error e => e = .deprovisionInFlight deployment ∧ ¬Live w deployment ∧
      ∃ i ∈ w.records.instances, i.deployment = deployment
  | .ok none => ∀ i ∈ w.records.instances, i.deployment ≠ deployment
  | .ok (some live) => live ∈ w.records.instances ∧ live.deployment = deployment ∧
      live.deprovisionTask = none

theorem joinable_finds (deployment : String) :
    Yields (fun _ => False) (joinable (inMemory faulty details) deployment) w
      (fun r w' => w' = w ∧ Found w deployment r) := by
  unfold joinable
  refine .bind (.instancesOn (fun no => no.elim) ?_)
  refine .ite (fun none => .pure ⟨rfl, ?_⟩) (fun some => ?_)
  · simpa [Found, List.filter_eq_nil_iff] using none
  · split
    next none =>
      refine .throw ⟨rfl, rfl, ?_, ?_⟩
      · rintro ⟨i, mem, on, stays⟩
        have going := List.find?_eq_none.mp none i (List.mem_filter.mpr ⟨mem, by simpa using on⟩)
        simp [Instance.isDeprovisioning, stays] at going
      · obtain ⟨i, mem⟩ := List.exists_mem_of_ne_nil _ some
        exact ⟨i, (List.mem_filter.mp mem).1, by simpa using (List.mem_filter.mp mem).2⟩
    next live found =>
      have mem := List.mem_filter.mp (List.mem_of_find?_eq_some found)
      have stays := List.find?_some found
      refine .pure ⟨rfl, mem.1, by simpa using mem.2, ?_⟩
      simpa [Instance.isDeprovisioning] using stays

theorem isTaken_tells (deployment : String) :
    Yields (fun _ => False) (isTaken (inMemory faulty details) deployment) w (fun r w' =>
      w' = w ∧ ∃ taken, r = .ok taken ∧ (taken = false ↔
        (∀ i ∈ w.records.instances, i.deployment ≠ deployment) ∧
          ∀ o ∈ w.pool.orphans, o.1 ≠ deployment)) := by
  unfold isTaken
  refine .get fun b at_ => ?_
  subst at_
  refine .ite (fun held => .pure ⟨rfl, true, rfl, ?_⟩) (fun free => ?_)
  · obtain ⟨o, mem, same⟩ := List.any_eq_true.mp held
    exact ⟨nofun, fun unused => absurd (by simpa using same) (unused.2 o mem)⟩
  · refine .bind (.instancesOn (fun no => no.elim) (.pure ⟨rfl, _, rfl, ?_⟩))
    have unheld : ∀ o ∈ b.pool.orphans, o.1 ≠ deployment := fun o =>
      NetworkPool.ne_of_not_isOrphaned (by simpa using free)
    simpa [List.filter_eq_nil_iff] using fun _ => unheld

section Provision

variable {request : Request} {choice : Nat} {now : Timestamp} {plan : Plan}

theorem Stocked.blank_of_unsaved (h : Stocked networks w) {network task : String}
    (mem : network ∈ w.pool.configured)
    (unsaved : (Instance.new id (plan.deployment id) network task request now).validate ≠ .ok ()) :
    id = "" ∨ "" ∈ networks := by
  rcases Instance.blank_of_invalid unsaved with own | placed
  · exact .inl own
  · exact .inr (h.configured.mp (placed ▸ mem))

theorem Stocked.deploy_decides (h : Stocked networks w)
    (calls : w.director.outages = [])
    (resolved : Plan.resolve? request.serviceId request.planId = some plan)
    (id_new : ∀ i ∈ w.records.instances, i.id ≠ id)
    (unrecorded : ∀ i ∈ w.records.instances, i.deployment ≠ plan.deployment id)
    (unheld : ∀ o ∈ w.pool.orphans, o.1 ≠ plan.deployment id) :
    Yields (fun _ => False) (deploy (inMemory faulty details) id plan request choice now) w
      (fun r _ => Decided networks w id request r) := by
  unfold deploy
  refine .bind (.acquireNetwork (fun e failed => ?_) (fun network pool acquired => ?_))
  · obtain ⟨empty, rfl⟩ := NetworkPool.eq_nil_of_acquire failed
    refine .refused _ nofun fun fit => ?_
    rcases (fit.of_resolved resolved).2 with ⟨_, i, mem, on, _⟩ | room
    · exact unrecorded i mem on
    · exact h.card_lt_iff.mp room.left empty
  · have free := (NetworkPool.acquire_ok acquired).1
    have fit : Admits networks w id request := ⟨plan, resolved, id_new,
      .inr ⟨unrecorded, unheld, h.card_lt_iff.mpr (List.ne_nil_of_mem free)⟩⟩
    refine .bind (.tryCatch (.onDirector (fun e failed => ?_) (fun task created => ?_)))
    · obtain ⟨off, cause, rfl⟩ := SimulatedDirector.not_created calls failed
      exact .bind (.onPool (.throw (.failed _ (.create cause) (.inl off))))
    · refine .bind (.tryCatch (.saveInstance_told (fun unsaved text => ?_) ?_))
      · have blank := h.blank_of_unsaved (h.orderly.tidy.free _ free)
          (unsaved.resolve_left fun no => no)
        exact .bind (.onPool (.throw (.failed _ (.save text) (.inr blank))))
      · exact .pure (.provided task.token fit)

theorem Stocked.deployUnlessTaken_decides (h : Stocked networks w)
    (calls : w.director.outages = [])
    (resolved : Plan.resolve? request.serviceId request.planId = some plan)
    (id_new : ∀ i ∈ w.records.instances, i.id ≠ id)
    (nobody : plan.isShared = true → ¬Live w (plan.deployment id)) :
    Yields (fun _ => False)
      (do
        if ← isTaken (inMemory faulty details) (plan.deployment id) then
          throw (.instanceAlreadyExists id)
        deploy (inMemory faulty details) id plan request choice now)
      w (fun r _ => Decided networks w id request r) := by
  refine .bind ((isTaken_tells _).mono ?_)
  rintro _ _ ⟨rfl, taken, rfl, unused⟩
  refine .ite (fun used => .bind (.throw (.refused _ nofun fun fit => ?_))) (fun free => ?_)
  · rcases (fit.of_resolved resolved).2 with ⟨shared, live⟩ | room
    · exact nobody shared live
    · exact Bool.noConfusion (used.symm.trans (unused.mpr ⟨room.unrecorded, room.unheld⟩))
  · obtain ⟨unrecorded, unheld⟩ := unused.mp (by simpa using free)
    exact h.deploy_decides calls resolved id_new unrecorded unheld

theorem Stocked.decides (h : Stocked networks w)
    (calls : w.director.outages = []) :
    Yields (fun _ => False) (provision (inMemory faulty details) id request true choice now) w
      (fun r _ => Decided networks w id request r) := by
  unfold provision
  refine .ite (fun no => absurd no (by decide)) (fun _ => ?_)
  dsimp only
  split
  next plan resolved =>
    refine .bind (.findInstance (fun no => no.elim) ?_)
    refine .ite (fun present => .bind (.throw (.refused _ nofun fun fit => ?_))) (fun absent => ?_)
    · simp [List.find?_isSome] at present
      obtain ⟨i, mem, own⟩ := present
      exact (fit.of_resolved resolved).1 i mem own
    have id_new : ∀ i ∈ w.records.instances, i.id ≠ id := by
      simpa [List.find?_eq_none] using absent
    refine .ite (fun shared => .bind ((joinable_finds _).mono ?_)) (fun dedicated => ?_)
    · rintro (e | _ | live) _ ⟨rfl, found⟩
      · obtain ⟨rfl, dead, i, mem, on⟩ := found
        refine .refused _ nofun fun fit => ?_
        rcases (fit.of_resolved resolved).2 with ⟨_, live⟩ | room
        · exact dead live
        · exact room.unrecorded i mem on
      · exact h.deployUnlessTaken_decides calls resolved id_new
          fun _ ⟨i, mem, on, _⟩ => found i mem on
      · obtain ⟨mem, on, stays⟩ := found
        have fit : Admits networks _ id request :=
          ⟨plan, resolved, id_new, .inl ⟨shared, live, mem, on, stays⟩⟩
        refine .bind (.saveInstance_told (fun unsaved text => .failed _ (.save text) (.inr ?_))
          (.pure (.provided _ fit)))
        exact h.blank_of_unsaved (h.orderly.network_configured mem)
          (unsaved.resolve_left fun no => no)
    · exact .bind (.pure (h.deployUnlessTaken_decides calls resolved id_new
        fun shared => absurd shared dedicated))
  next unresolved =>
    refine .throw (.refused _ nofun ?_)
    rintro ⟨plan, resolved, _⟩
    exact unresolved plan resolved

structure Placed (details : DirectorDetails)
    (w : Broker (Director.Outages SimulatedDirector) MemoryStore) (id : String) (plan : Plan)
    (request : Request) (now : Timestamp) (token network : String)
    (w' : Broker (Director.Outages SimulatedDirector) MemoryStore) : Prop where
  free : network ∈ w.pool.available
  pool : w'.pool = { w.pool with available := w.pool.available.filter (· ≠ network) }
  records : w'.records = w.records.putInstance
    (Instance.new id (plan.deployment id) network token request now)
  director : ∃ description, w'.director.service =
    ((w.director.service.addDeployment (Manifest.render (plan.deployment id) network
      plan.isPermissioned details)).startTask description).2
  calls : w'.director.service.created = w.director.service.created + 1 ∧
    w'.director.service.deleted = w.director.service.deleted
  task : ∃ task, Starts w.director.service w'.director.service task ∧ task.token = token
  token_new : ∀ t ∈ w.director.service.tasks, t.token ≠ token

variable {token : String}

theorem Provisioned.of_recorded (tenancy : Tenancy w)
    (outcome : Provisioned faulty details may w id request choice now (.ok token) w')
    (resolved : Plan.resolve? request.serviceId request.planId = some plan) {i : Instance}
    (mem : i ∈ w.records.instances) (on : i.deployment = plan.deployment id) :
    token = i.provisionTask ∧ w' = { w with
      records := w.records.putInstance
        (Instance.new id (plan.deployment id) i.network token request now) } := by
  cases outcome with
  | joined plan' live resolved' _ _ recorded same =>
    obtain rfl := Option.some.inj (resolved.symm.trans resolved')
    -- Whichever instance was joined, all on the deployment agree about network and task.
    have agree := tenancy.agree live recorded i mem
    have together := same.trans on.symm
    exact ⟨agree.task together, by rw [agree.network_iff.mpr together]⟩
  | recorded p =>
    obtain rfl := Option.some.inj (resolved.symm.trans p.resolved)
    exact absurd on (p.deployment_new i mem)

theorem Provisioned.of_unrecorded (numbered : Numbered w.director.service)
    (outcome : Provisioned faulty details may w id request choice now (.ok token) w')
    (resolved : Plan.resolve? request.serviceId request.planId = some plan)
    (unrecorded : ∀ i ∈ w.records.instances, i.deployment ≠ plan.deployment id) :
    ∃ network, Placed details w id plan request now token network w' := by
  cases outcome with
  | joined plan' live resolved' _ _ recorded same =>
    obtain rfl := Option.some.inj (resolved.symm.trans resolved')
    exact absurd same (unrecorded live recorded)
  | recorded p task created =>
    obtain rfl := Option.some.inj (resolved.symm.trans p.resolved)
    obtain ⟨free, taken⟩ := NetworkPool.acquire_ok p.acquired
    obtain ⟨starts, _⟩ := SimulatedDirector.starts_of_created created
    obtain ⟨description, service⟩ := SimulatedDirector.service_of_created created
    refine ⟨p.network, free, taken, rfl, ⟨description, service⟩, ?_, ⟨task, starts, rfl⟩, ?_⟩
    · exact service ▸ ⟨rfl, rfl⟩
    · intro t mem same
      have old := numbered.below ⟨t.state, mem⟩
      rw [Task.id_of_token same, starts.number] at old
      exact Nat.lt_irrefl _ old

structure Provides (details : DirectorDetails) (networks : List String)
    (w : Broker (Director.Outages SimulatedDirector) MemoryStore) (id : String)
    (request : Request) (now : Timestamp) (result : Except BrokerError String)
    (w' : Broker (Director.Outages SimulatedDirector) MemoryStore) : Prop where
  ok_iff : ¬CallFailed result →
    ((∃ token, result = .ok token) ↔ Admits networks w id request)
  failed : CallFailed result →
    w.director.service.failsCreations = true ∨ id = "" ∨ "" ∈ networks
  joined : ∀ plan token, Plan.resolve? request.serviceId request.planId = some plan →
    Live w (plan.deployment id) → result = .ok token →
      ∀ i ∈ w.records.instances, i.deployment = plan.deployment id →
        token = i.provisionTask ∧ w' = { w with
          records := w.records.putInstance
            (Instance.new id (plan.deployment id) i.network token request now) }
  deployed : ∀ plan token, Plan.resolve? request.serviceId request.planId = some plan →
    Room networks w (plan.deployment id) → result = .ok token →
      ∃ network, Placed details w id plan request now token network w'

theorem Stocked.provides (h : Stocked networks w) (calls : w.director.outages = []) :
    Yields (fun _ => False) (provision (inMemory faulty details) id request true choice now) w
      (Provides details networks w id request now) := by
  refine ((h.decides calls).and (provision_yields id request true choice now)).mono ?_
  rintro result w' ⟨decided, outcome⟩
  constructor
  · intro answered
    cases decided with
    | refused e _ unfit => exact ⟨nofun, fun fit => absurd fit unfit⟩
    | failed _ call => exact absurd call answered
    | provided token fit => exact ⟨fun _ => fit, fun _ => ⟨token, rfl⟩⟩
  · intro call
    cases decided with
    | refused _ answered => exact absurd call answered
    | failed _ _ why => exact why
    | provided => cases call
  · rintro plan token resolved _ rfl i mem on
    exact outcome.of_recorded h.orderly.coherent.tenancy resolved mem on
  · rintro plan token resolved room rfl
    exact outcome.of_unrecorded h.numbered resolved room.unrecorded

/-- A provision that no call fails succeeds if and only if it may join a live instance, or its
deployment is unknown and there is a network left for it. -/
theorem run_provision_succeeds_iff (details : DirectorDetails) (networks : List String)
    (fails atOnce : Bool) {events : List (Event SimulatedDirector.Move)}
    (readable : Readable networks events) (id : String) (request : Request) (choice : Nat)
    (now : Timestamp) :
    let b := (run (inMemory faulty details) SimulatedDirector.Move.apply
      (fresh networks (SimulatedDirector.idle fails atOnce)) events).mended
    let done := (provision (inMemory faulty details) id request true choice now).exec b
    Provides details networks b.settled id request now done.1 done.2.settled := by
  intro b done
  have stocked : Stocked networks b.settled :=
    (run_keeps (Stocked.keeps readable) (fresh_breaks _ _ _)
      (.start networks fails atOnce)).2.moved rfl
  exact (stocked.provides rfl b rfl fun _ mem => absurd mem List.not_mem_nil).2

def lostAndJoined : List (Event SimulatedDirector.Move) := [
  .storeBreaks .saveInstance 0,
  .act (.provision "a" (orderOf .permissionless) true 0 firstDay),
  .storeMends .saveInstance,
  .act (.provision "b" (orderOf .sharedPermissioned) true 0 firstDay),
  .act (.provision "c" (orderOf .sharedPermissioned) true 0 firstDay)]

def afterJoining : Broker (Director.Outages SimulatedDirector) (Store.Outages MemoryStore) :=
  (run (inMemory faulty someDetails) SimulatedDirector.Move.apply
    (fresh ["net1", "net2", "net1", "net3"] (SimulatedDirector.idle false false))
    lostAndJoined).mended

theorem run_provision_succeeds_iff_last :
    Readable ["net1", "net2", "net1", "net3"] lostAndJoined ∧
      afterJoining.pool.orphans = [("fabric-a", "net1")] ∧
      afterJoining.pool.available = ["net3"] ∧
      ((provision (inMemory faulty someDetails) "d" (orderOf .permissionless) true 0 firstDay).exec
        afterJoining).1 = .ok "3" ∧
      Provides someDetails ["net1", "net2", "net1", "net3"] afterJoining.settled "d"
        (orderOf .permissionless) firstDay
        ((provision (inMemory faulty someDetails) "d" (orderOf .permissionless) true 0
          firstDay).exec afterJoining).1
        ((provision (inMemory faulty someDetails) "d" (orderOf .permissionless) true 0
          firstDay).exec afterJoining).2.settled := by
  have readable : Readable ["net1", "net2", "net1", "net3"] lostAndJoined := by
    constructor
    · intro other mem
      simp [lostAndJoined] at mem
    · intro kind after mem
      simp only [lostAndJoined, List.mem_cons, Event.storeBreaks.injEq, reduceCtorEq,
        or_false, List.not_mem_nil] at mem
      obtain ⟨rfl, _⟩ := mem
      rfl
  exact ⟨readable, by decide +kernel, by decide +kernel, by decide +kernel,
    run_provision_succeeds_iff someDetails _ false false readable "d" _ 0 firstDay⟩

end Provision

end Broker

end LedgerBroker
