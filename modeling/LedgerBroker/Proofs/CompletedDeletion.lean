import LedgerBroker.Proofs.Bookkeeping
import LedgerBroker.Proofs.PollFailure

set_option autoImplicit false

namespace LedgerBroker

namespace NetworkPool

variable {p : NetworkPool} {n : String}

theorem release_taken (configured : n ∈ p.configured) (unheld : ∀ o ∈ p.orphans, o.2 ≠ n)
    (taken : n ∉ p.available) :
    p.release n = { p with available := p.available ++ [n] } := by
  have unheld : p.isHeld n = false := not_isHeld_iff.mpr unheld
  simp [release, isAvailable, configured, unheld, taken]

end NetworkPool

namespace SimulatedDirector

theorem token_of_found {s : SimulatedDirector} {token : String} {task : Task}
    (found : s.findTask? token = some task) : token ≠ "" := by
  rintro rfl
  have unnumbered : taskNumber? "" = none := rfl
  simp [findTask?, unnumbered] at found

theorem found_of_told {x : Director.Outages SimulatedDirector} {token : String} {task : Task}
    (told : ((faulty.task token).exec x).1 = .ok task) : x.service.findTask? token = some task := by
  have asked := (exec_guard_ok told).1
  simp only [director, Call.query, Call.exec_of] at asked
  split at asked
  next => cases asked
  next task' found => exact found.trans (congrArg some (Except.ok.inj asked))

end SimulatedDirector

namespace Broker

open SimulatedDirector (faulty)

variable {details : DirectorDetails} {may : Store.CallKind → Prop} {networks : List String}
  {w w' : Broker (Director.Outages SimulatedDirector) MemoryStore} {action : Action}
  {id token : String} {operation : Option String} {i : Instance}

def Housed (networks : List String)
    (w : Broker (Director.Outages SimulatedDirector) MemoryStore) : Prop :=
  ∀ i ∈ w.records.instances, i.network ∈ (NetworkPool.new networks).configured

namespace Housed

theorem subset (h : Housed networks w)
    (sub : ∀ i ∈ w'.records.instances, i ∈ w.records.instances) : Housed networks w' :=
  fun i mem => h i (sub i mem)

theorem put (h : Housed networks w) {pool : NetworkPool} {x : Director.Outages SimulatedDirector}
    (configured : i.network ∈ (NetworkPool.new networks).configured) :
    Housed networks ⟨pool, x, w.records.putInstance i⟩ := by
  intro j mem
  rcases MemoryStore.mem_putInstance.mp mem with ⟨old, _⟩ | rfl
  · exact h j old
  · exact configured

theorem turn (h : Housed networks w) (tidy : Tidy w) (traced : Traced networks w)
    (turn : Turn faulty details may w action w') : Housed networks w' := by
  obtain ⟨pool, x, r⟩ := w'
  have instances : InstanceTurn w action r := turn.instances
  cases instances with
  | same same => exact h.subset fun i mem => same ▸ mem
  | joined plan live _ recorded => exact h.put (h live recorded)
  | recorded p =>
    have free := tidy.free _ (NetworkPool.acquire_ok p.acquired).1
    exact h.put (traced.configured ▸ free)
  | left | completed => exact h.subset fun i mem => (MemoryStore.mem_removeInstance.mp mem).1
  | marked p => exact h.put (h p.i (MemoryStore.mem_of_find p.found).1)

end Housed

structure Orderly (networks : List String)
    (w : Broker (Director.Outages SimulatedDirector) MemoryStore) : Prop where
  coherent : Coherent w
  tidy : Tidy w
  traced : Traced networks w
  housed : Housed networks w
  parting : Parting w

namespace Orderly

theorem start (networks : List String) (fails atOnce : Bool) :
    Orderly networks (fresh networks (SimulatedDirector.idle fails atOnce)).settled where
  coherent := .start networks fails atOnce
  tidy := .start networks fails atOnce
  traced := .start networks fails atOnce
  housed _ mem := absurd mem List.not_mem_nil
  parting _ mem := absurd mem List.not_mem_nil

theorem moved (h : Orderly networks w) {x : Director.Outages SimulatedDirector}
    (same : x.service = w.director.service) : Orderly networks { w with director := x } :=
  ⟨h.coherent.moved same, h.tidy.moved x, h.traced.moved same, h.housed, h.parting⟩

theorem turn (h : Orderly networks w) (turn : Turn faulty details may w action w') :
    Orderly networks w' :=
  ⟨h.coherent.turn turn, h.tidy.turn h.coherent turn, h.traced.turn h.tidy h.coherent turn,
    h.housed.turn h.tidy h.traced turn, h.parting.turn turn⟩

theorem restarted (h : Orderly networks w)
    (outcome : Refreshed faulty (Broker.start networks w.director w.records) (.ok ()) w') :
    Orderly networks w' := by
  have records : w'.records = w.records := by cases outcome; rfl
  exact ⟨h.coherent.restarted outcome, Tidy.restarted h.coherent outcome,
    h.traced.restarted h.coherent outcome, h.housed.subset fun i mem => records ▸ mem,
    h.parting.shrink fun i mem => records ▸ mem⟩

theorem disturbed (h : Orderly networks w) (m : SimulatedDirector.Move) :
    Orderly networks { w with director := m.apply w.director } :=
  ⟨h.coherent.disturbed m, h.tidy.moved _, h.traced.disturbed m, h.housed, h.parting⟩

theorem keeps {events : List (Event SimulatedDirector.Move)}
    (same : Traced.SameNetworks networks events) :
    Keeps faulty details (fun _ => True) SimulatedDirector.Move.apply events
      (Orderly networks) where
  turn _ _ _ _ h turn := h.turn turn
  restart _ other _ mem h outcome := by
    obtain rfl := same other mem
    exact h.restarted outcome
  move _ m _ h := h.disturbed m
  breaks _ _ _ := trivial

theorem run {events : List (Event SimulatedDirector.Move)}
    (same : Traced.SameNetworks networks events) (fails atOnce : Bool) :
    Orderly networks (Broker.run (inMemory faulty details) SimulatedDirector.Move.apply
      (fresh networks (SimulatedDirector.idle fails atOnce)) events).settled :=
  (run_keeps (keeps same) (fresh_breaks _ _ _) (start networks fails atOnce)).2

theorem network_configured (h : Orderly networks w) (mem : i ∈ w.records.instances) :
    i.network ∈ w.pool.configured := h.traced.configured ▸ h.housed i mem

theorem alone (h : Orderly networks w) (mem : i ∈ w.records.instances)
    (going : i.deprovisionTask ≠ none) :
    ∀ j ∈ w.records.instances, j.deployment = i.deployment ∨ j.network = i.network → j = i := by
  rintro j mem' (same | same)
  · exact h.parting i mem going j mem' same
  · exact h.parting i mem going j mem' ((h.coherent.tenancy.agree j mem' i mem).network_iff.mp same)

end Orderly

structure Finished (w : Broker (Director.Outages SimulatedDirector) MemoryStore) (id : String)
    (operation : Option String) (i : Instance) : Prop where
  recorded : i ∈ w.records.instances
  own : i.id = id
  done : ∃ token task, operation = some token ∧ i.deprovisionTask = some token ∧
    w.director.service.findTask? token = some task ∧ task.state.isDone = true

/-- The records and the pool once a deletion is completed: the record is gone, its network was taken
and is free, and that is all. -/
structure Reclaimed (w : Broker (Director.Outages SimulatedDirector) MemoryStore) (i : Instance)
    (w' : Broker (Director.Outages SimulatedDirector) MemoryStore) : Prop where
  instances : ∀ j, j ∈ w'.records.instances ↔ j ∈ w.records.instances ∧ j ≠ i
  bindings : w'.records.bindings = w.records.bindings
  taken : i.network ∉ w.pool.available
  pool : w'.pool = { w.pool with available := w.pool.available ++ [i.network] }

theorem Orderly.reclaimed (h : Orderly networks w) (mem : i ∈ w.records.instances)
    (x : Director.Outages SimulatedDirector) :
    Reclaimed w i ⟨w.pool.release i.network, x, w.records.removeInstance i.id⟩ where
  instances j := by
    rw [MemoryStore.mem_removeInstance]
    constructor
    · rintro ⟨old, other⟩
      exact ⟨old, fun same => other (congrArg Instance.id same)⟩
    · rintro ⟨old, other⟩
      exact ⟨old, fun same => other (h.coherent.tenancy.id_unique j old i mem same)⟩
  bindings := rfl
  taken := h.coherent.tenancy.taken i mem
  pool := NetworkPool.release_taken (h.network_configured mem)
    (fun o held => h.tidy.unheld o held i mem) (h.coherent.tenancy.taken i mem)

variable {b : Broker (Director.Outages SimulatedDirector) (Store.Outages MemoryStore)}

theorem Finished.due (h : Finished b.settled id operation i) (tenancy : Tenancy b.settled) :
    ∃ token, Due faulty b.mended id operation token i := by
  obtain ⟨token, task, rfl, marked, found, done⟩ := h.done
  have named : token ≠ "" := SimulatedDirector.token_of_found found
  refine ⟨token, by simp [named], tenancy.find h.recorded h.own, marked, task, ?_, done⟩
  have told : ((SimulatedDirector.director.task token).exec b.director.service).1 = .ok task := by
    have found : b.director.service.findTask? token = some task := found
    simp [SimulatedDirector.director, Call.query, found]
  exact told

theorem Orderly.completes (h : Orderly networks b.settled)
    (finished : Finished b.settled id operation i) :
    Ends b.mended (lastOperation (inMemory faulty details) id operation) fun result w' =>
      result = .ok (.ofTaskState .deprovision .done) ∧ Reclaimed b.settled i w' := by
  obtain ⟨token, due⟩ := finished.due h.coherent.tenancy
  have quiet : Store.Breaks (fun _ => False) b.mended.records :=
    fun _ mem => absurd mem List.not_mem_nil
  have going : i.deprovisionTask ≠ none := due.marked ▸ nofun
  have ended : Ends b.mended (lastOperation (inMemory faulty details) id operation)
      (Ended faulty b.mended id i) :=
    due.ends quiet (h.coherent.tenancy.unshared h.parting due.found going)
  unfold Ends at ended ⊢
  generalize ((lastOperation (inMemory faulty details) id operation).exec b.mended).1 = result,
    ((lastOperation (inMemory faulty details) id operation).exec b.mended).2.settled = w' at ended ⊢
  -- All calls get through, which leaves only the last of the three ways to end.
  cases ended with
  | kept _ _ _ broken => rcases broken with refused | refused <;> cases refused
  | stranded _ _ _ strands => exact nomatch strands.lists
  | freed x => exact ⟨rfl, finished.own ▸ h.reclaimed finished.recorded x⟩

structure Untouched (w w' : Broker (Director.Outages SimulatedDirector) MemoryStore) : Prop where
  records : w'.records = w.records
  pool : w'.pool = w.pool
  director : w'.director.service = w.director.service

theorem Looked.finished {polled : Polled} (looked : Looked faulty w id operation (.ok polled) w')
    (completes : polled.completesDeletion = true) : ∃ i, Finished w id operation i := by
  obtain ⟨token, i, task, asks, found, marked, told, done⟩ := looked.deletion completes
  have ⟨mem, own⟩ := MemoryStore.mem_of_find found
  exact ⟨i, mem, own, token, task, asks, marked, SimulatedDirector.found_of_told told, done⟩

theorem Turn.untouched (turn : Turn faulty details may w (.lastOperation id operation) w')
    (unfinished : ∀ i, ¬Finished w id operation i) : Untouched w w' := by
  cases turn with
  | looked outcome =>
    obtain ⟨x, asked, rfl⟩ := outcome.asked
    exact ⟨rfl, rfl, SimulatedDirector.service_of_asked asked⟩
  | completed looked completes =>
    obtain ⟨i, finished⟩ := looked.finished completes
    exact absurd finished (unfinished i)

section Parted

def parted : List (Event SimulatedDirector.Move) := [
  .act (.provision "a" (orderOf .sharedPermissioned) true 1 firstDay),
  .act (.provision "b" (orderOf .sharedPermissioned) true 0 firstDay),
  .act (.deprovision "a" true firstDay),
  .storeBreaks .saveInstance 0,
  .act (.deprovision "b" true firstDay),
  .storeMends .saveInstance,
  .act (.deprovision "b" true firstDay)]

end Parted

end Broker

end LedgerBroker
