import LedgerBroker.Director.Outage
import LedgerBroker.Director.Simulated
import LedgerBroker.Proofs.Outcomes

set_option autoImplicit false

namespace LedgerBroker

namespace Broker

open Step

variable {δ ρ μ : Type}

/-- What a broker is asked to do, with the time and, where it matters, the choice of a network. -/
inductive Action
  | provision (id : String) (request : Request) (acceptsIncomplete : Bool) (choice : Nat)
      (now : Timestamp)
  | deprovision (id : String) (acceptsIncomplete : Bool) (now : Timestamp)
  | lastOperation (id : String) (operation : Option String)
  | bind (id bindingId : String) (request : BindRequest) (now : Timestamp)
  | unbind (id bindingId : String)
  | refresh
  deriving DecidableEq, Repr

def perform (s : Services δ ρ) (b : Broker δ ρ) : Action → Broker δ ρ
  | .provision id request accepts choice now =>
    ((provision s id request accepts choice now).exec b).2
  | .deprovision id accepts now => ((deprovision s id accepts now).exec b).2
  | .lastOperation id operation => ((lastOperation s id operation).exec b).2
  | .bind id bindingId request now => ((bind s id bindingId request now).exec b).2
  | .unbind id bindingId => ((unbind s id bindingId).exec b).2
  | .refresh => ((refresh s).exec b).2

/-- What happens to a broker and its services. `μ` is what the Director may do by itself. -/
inductive Event (μ : Type)
  | act (action : Action)
  /-- A new broker takes over with these networks, once it has found out which are in use. -/
  | restart (networks : List String)
  | move (m : μ)
  | storeBreaks (kind : Store.CallKind) (after : Nat)
  | storeMends (kind : Store.CallKind)

def fresh (networks : List String) (x : δ) : Broker δ (Store.Outages MemoryStore) :=
  start networks x ⟨{}, []⟩

theorem fresh_breaks (may : Store.CallKind → Prop) (networks : List String) (x : δ) :
    Store.Breaks may (fresh networks x).records := fun _ mem => absurd mem List.not_mem_nil

variable (s : Services δ (Store.Outages MemoryStore)) (move : μ → δ → δ)

def happen (b : Broker δ (Store.Outages MemoryStore)) :
    Event μ → Broker δ (Store.Outages MemoryStore)
  | .act action => perform s b action
  | .restart networks =>
    match (refresh s).exec (start networks b.director b.records) with
    | (.ok (), b') => b'
    | (.error _, _) => b
  | .move m => { b with director := move m b.director }
  | .storeBreaks kind after => { b with records := b.records.announce ⟨kind, after, .broken⟩ }
  | .storeMends kind => { b with records := b.records.mend kind }

def run (b : Broker δ (Store.Outages MemoryStore)) (events : List (Event μ)) :
    Broker δ (Store.Outages MemoryStore) :=
  events.foldl (happen s move) b

def mended (b : Broker (Director.Outages δ) (Store.Outages MemoryStore)) :
    Broker (Director.Outages δ) (Store.Outages MemoryStore) :=
  ⟨b.pool, ⟨b.director.service, []⟩, ⟨b.records.service, []⟩⟩

section Turn

variable (d : Director δ) (details : DirectorDetails) (may : Store.CallKind → Prop)
  (w : Broker δ MemoryStore)

/-- All that an action may make of a broker. -/
inductive Turn : Action → Broker δ MemoryStore → Prop
  | provision {id request accepts choice now result w'}
      (h : Provisioned d details may w id request choice now result w') :
      Turn (.provision id request accepts choice now) w'
  | deprovision {id accepts now result w'} (h : Deprovisioned d may w id now result w') :
      Turn (.deprovision id accepts now) w'
  | looked {id operation result w'} (h : Looked d w id operation result w') :
      Turn (.lastOperation id operation) w'
  | completed {id operation polled w₁ result w₂}
      (looked : Looked d w id operation (.ok polled) w₁)
      (completes : polled.completesDeletion = true) (h : Completed may w₁ id result w₂) :
      Turn (.lastOperation id operation) w₂
  | bind {id bindingId request now result w'} (h : Bound d w id bindingId now result w') :
      Turn (.bind id bindingId request now) w'
  | unbind {id bindingId result w'} (h : Unbound w id bindingId result w') :
      Turn (.unbind id bindingId) w'
  | refresh {result w'} (h : Refreshed d w result w') : Turn .refresh w'

inductive InstanceTurn : Action → MemoryStore → Prop
  | same {action r} (same : r.instances = w.records.instances) : InstanceTurn action r
  | joined {id request accepts choice now} (plan : Plan) (live : Instance)
      (id_new : ∀ i ∈ w.records.instances, i.id ≠ id) (recorded : live ∈ w.records.instances)
      (on : live.deployment = plan.deployment id) (stays : live.deprovisionTask = none) :
      InstanceTurn (.provision id request accepts choice now) (w.records.putInstance
        (Instance.new id (plan.deployment id) live.network live.provisionTask request now))
  | recorded {id request accepts choice now} (p : Placement w id request choice) (task : Task) :
      InstanceTurn (.provision id request accepts choice now)
        (w.records.putInstance (p.instance_ task now))
  | left {id accepts now} (unbound : ∀ b ∈ w.records.bindings, b.instanceId ≠ id) :
      InstanceTurn (.deprovision id accepts now) (w.records.removeInstance id)
  | marked {id accepts now} (p : Departure w id) (token : String) :
      InstanceTurn (.deprovision id accepts now)
        (w.records.putInstance (p.i.markDeprovisioning token now))
  | completed {id operation} (i : Instance)
      (found : w.records.instances.find? (·.id = id) = some i) (going : i.deprovisionTask ≠ none) :
      InstanceTurn (.lastOperation id operation) (w.records.removeInstance id)

inductive Change (move : μ → δ → δ) : Event μ → Broker δ MemoryStore → Prop
  | acted {action w'} (turn : Turn d details may w action w') : Change move (.act action) w'
  | restarted {networks w'}
      (found : Refreshed d (start networks w.director w.records) (.ok ()) w') :
      Change move (.restart networks) w'
  | stayed (networks : List String) : Change move (.restart networks) w
  | moved (m : μ) : Change move (.move m) { w with director := move m w.director }
  | broken (kind : Store.CallKind) (after : Nat) (allowed : may kind) :
      Change move (.storeBreaks kind after) w
  | mended (kind : Store.CallKind) : Change move (.storeMends kind) w

end Turn

section Invariant

variable {d : Director δ} {details : DirectorDetails} {may : Store.CallKind → Prop}
  {move : μ → δ → δ}

theorem Turn.instances {w w' : Broker δ MemoryStore} {action : Action}
    (turn : Turn d details may w action w') : InstanceTurn w action w'.records := by
  cases turn with
  | provision outcome =>
    cases outcome with
    | refused | notStarted | unrecorded => exact .same rfl
    | joined plan live _ _ id_new recorded on stays =>
      exact .joined plan live id_new recorded on (by simpa [Instance.isDeprovisioning] using stays)
    | recorded p task => exact .recorded p task
  | deprovision outcome =>
    cases outcome with
    | unchanged | notDeleted | unmarked => exact .same rfl
    | left _ _ _ _ _ _ unbound => exact .left unbound
    | marked p _ _ task => exact .marked p task.token
  | looked outcome =>
    obtain ⟨x, _, rfl⟩ := outcome.asked
    exact .same rfl
  | completed looked completes outcome =>
    obtain ⟨x, _, rfl, going⟩ := looked.going completes
    cases outcome with
    | failed | absent => exact .same rfl
    | stranded i _ _ found | shared i _ found | freed i found =>
      exact .completed i found (going i found)
  | bind outcome => cases outcome <;> exact .same rfl
  | unbind outcome => cases outcome <;> exact .same rfl
  | refresh outcome => cases outcome <;> exact .same rfl

theorem lastOperation_yields (w : Broker δ MemoryStore) (id : String)
    (operation : Option String) :
    Yields may (lastOperation (inMemory d details) id operation) w
      (fun _ w' => Turn d details may w (.lastOperation id operation) w') := by
  unfold lastOperation
  refine .bind ((poll_yields id operation).mono ?_)
  rintro (e | polled) w' looked
  · exact .looked looked
  · refine .ite (fun completes => ?_) (fun _ => .pure (.looked looked))
    -- The completion starts from whatever the poll left behind.
    refine .bind ((completeDeprovision_yields id).mono ?_)
    rintro (e | _) w'' completed
    · exact .completed looked completes completed
    · exact .pure (.completed looked completes completed)

theorem turn_perform (action : Action) (b : Broker δ (Store.Outages MemoryStore))
    (breaks : Store.Breaks may b.records) :
    Store.Breaks may (perform (inMemory d details) b action).records ∧
      Turn d details may b.settled action (perform (inMemory d details) b action).settled := by
  cases action with
  | provision id request accepts choice now =>
    exact (provision_yields id request accepts choice now b rfl breaks).imp_right .provision
  | deprovision id accepts now =>
    exact (deprovision_yields id accepts now b rfl breaks).imp_right .deprovision
  | lastOperation id operation => exact lastOperation_yields _ id operation b rfl breaks
  | bind id bindingId request now =>
    exact (bind_yields id bindingId request now b rfl breaks).imp_right .bind
  | unbind id bindingId =>
    exact (unbind_yields id bindingId b rfl breaks).imp_right .unbind
  | refresh =>
    exact (refresh_yields b rfl breaks).imp_right .refresh

structure Keeps (d : Director δ) (details : DirectorDetails) (may : Store.CallKind → Prop)
    (move : μ → δ → δ) (events : List (Event μ)) (P : Broker δ MemoryStore → Prop) : Prop where
  turn : ∀ w action w', .act action ∈ events → P w → Turn d details may w action w' → P w'
  restart : ∀ w networks w', .restart networks ∈ events → P w →
    Refreshed d (start networks w.director w.records) (.ok ()) w' → P w'
  move : ∀ w m, .move m ∈ events → P w → P { w with director := move m w.director }
  breaks : ∀ kind after, .storeBreaks kind after ∈ events → may kind

theorem breaks_announce {records : Store.Outages MemoryStore} (breaks : Store.Breaks may records)
    {kind : Store.CallKind} (allowed : may kind) (after : Nat) :
    Store.Breaks may (records.announce ⟨kind, after, .broken⟩) := by
  intro o mem
  rcases List.mem_cons.mp mem with rfl | mem
  · exact ⟨allowed, rfl⟩
  · exact breaks o (List.mem_filter.mp mem).1

theorem happen_change {e : Event μ} (allowed : ∀ kind after, e = .storeBreaks kind after → may kind)
    {b : Broker δ (Store.Outages MemoryStore)} (breaks : Store.Breaks may b.records) :
    Store.Breaks may (happen (inMemory d details) move b e).records ∧
      Change d details may b.settled move e (happen (inMemory d details) move b e).settled := by
  cases e with
  | act action => exact (turn_perform action b breaks).imp_right .acted
  | restart networks =>
    have yields (w : Broker δ MemoryStore) :
        Yields may (refresh (inMemory d details)) w (Refreshed d w) := refresh_yields
    have h := yields _ (start networks b.director b.records) rfl breaks
    -- A new broker takes over only when its refresh went through; else the old one stays.
    simp only [happen]
    split
    next b' same =>
      rw [same] at h
      exact h.imp_right .restarted
    next => exact ⟨breaks, .stayed networks⟩
  | move m => exact ⟨breaks, .moved m⟩
  | storeBreaks kind after =>
    have allowed := allowed kind after rfl
    exact ⟨breaks_announce breaks allowed after, .broken kind after allowed⟩
  | storeMends kind => exact ⟨fun o mem => breaks o (List.mem_filter.mp mem).1, .mended kind⟩

theorem happen_keeps {events : List (Event μ)} {P : Broker δ MemoryStore → Prop}
    (keeps : Keeps d details may move events P) {e : Event μ} (mem : e ∈ events)
    {b : Broker δ (Store.Outages MemoryStore)} (breaks : Store.Breaks may b.records)
    (holds : P b.settled) :
    Store.Breaks may (happen (inMemory d details) move b e).records ∧
      P (happen (inMemory d details) move b e).settled := by
  have allowed : ∀ kind after, e = .storeBreaks kind after → may kind :=
    fun kind after same => keeps.breaks kind after (same ▸ mem)
  have h : Store.Breaks may (happen (inMemory d details) move b e).records ∧
      Change d details may b.settled move e (happen (inMemory d details) move b e).settled :=
    happen_change allowed breaks
  refine ⟨h.1, ?_⟩
  have change := h.2
  generalize (happen (inMemory d details) move b e).settled = w' at change ⊢
  cases change with
  | @acted action _ turn => exact keeps.turn _ action _ mem holds turn
  | @restarted networks _ found => exact keeps.restart _ networks _ mem holds found
  | moved m => exact keeps.move _ m mem holds
  | stayed | broken | mended => exact holds

theorem run_keeps {events : List (Event μ)} {P : Broker δ MemoryStore → Prop}
    (keeps : Keeps d details may move events P) {b : Broker δ (Store.Outages MemoryStore)}
    (breaks : Store.Breaks may b.records) (holds : P b.settled) :
    Store.Breaks may (run (inMemory d details) move b events).records ∧
      P (run (inMemory d details) move b events).settled := by
  -- `keeps` speaks of all events, so the induction is on a part of them that it covers.
  have along (rest : List (Event μ)) (inside : ∀ e ∈ rest, e ∈ events)
      (b : Broker δ (Store.Outages MemoryStore)) (breaks : Store.Breaks may b.records)
      (holds : P b.settled) :
      Store.Breaks may (run (inMemory d details) move b rest).records ∧
        P (run (inMemory d details) move b rest).settled := by
    induction rest generalizing b with
    | nil => exact ⟨breaks, holds⟩
    | cons e rest ih =>
      have next := happen_keeps keeps (inside e List.mem_cons_self) breaks holds
      exact ih (fun e mem => inside e (List.mem_cons_of_mem _ mem)) _ next.1 next.2
  exact along events (fun _ mem => mem) b breaks holds

theorem run_breaks {events : List (Event μ)} {b : Broker δ (Store.Outages MemoryStore)}
    (breaks : Store.Breaks (fun _ => True) b.records) :
    Store.Breaks (fun _ => True) (run (inMemory d details) move b events).records := by
  have keeps : Keeps d details (fun _ => True) move events (fun _ => True) :=
    ⟨fun _ _ _ _ _ _ => trivial, fun _ _ _ _ _ _ => trivial, fun _ _ _ _ => trivial,
      fun _ _ _ => trivial⟩
  exact (run_keeps keeps breaks trivial).1

end Invariant

section Sample

def orderOf (plan : Plan) : Request := ⟨Catalog.serviceId, plan.id, "", ""⟩

theorem resolve_orderOf (plan : Plan) :
    Plan.resolve? (orderOf plan).serviceId (orderOf plan).planId = some plan := by
  cases plan <;> decide

def firstDay : Timestamp where
  date := ⟨1970, 1, 1, by decide, by decide, by decide⟩
  hour := 0
  minute := 0
  second := 0
  nano := 0
  hour_lt := by decide
  minute_lt := by decide
  second_le := by decide
  nano_lt := by decide

def someDetails : DirectorDetails where
  url := "http://director:25555"
  stemcell := "stemcell"
  uuid := "uuid"
  vmType := "small"
  networks := ["net1"]
  peerDataDir := "/data/peer"
  dockerDataDir := "/data/docker"
  skipTlsVerification := true

end Sample

end Broker

namespace SimulatedDirector

abbrev faulty : Director (Director.Outages SimulatedDirector) := director.unreliable

def idle (failsCreations completesAtOnce : Bool) : Director.Outages SimulatedDirector :=
  ⟨{ failsCreations, completesAtOnce }, []⟩

inductive Move
  | setTaskState (token : String) (state : TaskState)
  | removeDeployment (deployment : String)
  | breaks (kind : Director.CallKind) (after : Nat) (fault : BrokerError)
  | mends (kind : Director.CallKind)

def Move.apply : Move → Director.Outages SimulatedDirector → Director.Outages SimulatedDirector
  | setTaskState token state, d => { d with service := d.service.setTaskState token state }
  | removeDeployment name, d => { d with service := d.service.removeDeployment name }
  | breaks kind after fault, d => d.announce ⟨kind, after, fault⟩
  | mends kind, d => d.mend kind

end SimulatedDirector

end LedgerBroker
