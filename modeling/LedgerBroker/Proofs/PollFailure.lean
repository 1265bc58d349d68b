import LedgerBroker.Proofs.StalePoll

set_option autoImplicit false

namespace LedgerBroker

namespace Broker

open Step

variable {δ μ : Type} {d : Director δ} {details : DirectorDetails} {may : Store.CallKind → Prop}
  {move : μ → δ → δ}

section Parting

variable {w w' : Broker δ MemoryStore}

def Parting (w : Broker δ MemoryStore) : Prop :=
  ∀ i ∈ w.records.instances, i.deprovisionTask ≠ none →
    ∀ j ∈ w.records.instances, j.deployment = i.deployment → j = i

namespace Parting

theorem shrink (h : Parting w) (sub : ∀ i ∈ w'.records.instances, i ∈ w.records.instances) :
    Parting w' :=
  fun i mem going j mem' same => h i (sub i mem) going j (sub j mem') same

theorem put (h : Parting w) {pool : NetworkPool} {x : δ} {i : Instance}
    (others : ∀ j ∈ w.records.instances, j.id ≠ i.id → j.deployment = i.deployment →
      j.deprovisionTask = none ∧ i.deprovisionTask = none) :
    Parting ⟨pool, x, w.records.putInstance i⟩ := by
  intro j mem going k mem' same
  rcases MemoryStore.mem_putInstance.mp mem with ⟨old, other⟩ | rfl <;>
    rcases MemoryStore.mem_putInstance.mp mem' with ⟨old', other'⟩ | rfl
  · exact h j old going k old' same
  · exact absurd (others j old other same.symm).1 going
  · exact absurd (others k old' other' same).2 going
  · rfl

theorem turn (h : Parting w) {action : Action} (turn : Turn d details may w action w') :
    Parting w' := by
  obtain ⟨pool, x, r⟩ := w'
  have instances : InstanceTurn w action r := turn.instances
  cases instances with
  | same same => exact h.shrink fun i mem => same ▸ mem
  | joined plan live _ recorded same staying =>
    refine h.put (fun j mem _ on => ⟨?_, rfl⟩)
    by_cases stays : j.deprovisionTask = none
    · exact stays
    · -- Were one on the deployment being deleted, the live one would be that one.
      obtain rfl := h j mem stays live recorded (same.trans on.symm)
      exact staying
  | recorded p => exact h.put (fun j mem _ on => absurd on (p.deployment_new j mem))
  | left | completed => exact h.shrink fun i mem => (MemoryStore.mem_removeInstance.mp mem).1
  | marked p => exact h.put fun j mem other on => absurd (p.alone j mem on) other

theorem keeps (events : List (Event μ)) :
    Keeps d details (fun _ => True) move events (Parting (δ := δ)) where
  turn _ _ _ _ h turn := h.turn turn
  restart _ _ _ _ h outcome := by cases outcome; exact h
  move _ _ _ h := h
  breaks _ _ _ := trivial

theorem run (networks : List String) (x : δ) (events : List (Event μ)) :
    Parting (Broker.run (inMemory d details) move (fresh networks x) events).settled :=
  (run_keeps (keeps events) (fresh_breaks _ networks x)
    (fun _ mem => absurd mem List.not_mem_nil)).2

end Parting

theorem Tenancy.unshared {id : String} {i : Instance} (h : Tenancy w) (parting : Parting w)
    (found : w.records.instances.find? (·.id = id) = some i) (going : i.deprovisionTask ≠ none) :
    ∀ j ∈ (w.records.removeInstance id).instances, j.network ≠ i.network := by
  intro j mem same
  have ⟨recorded, own⟩ := MemoryStore.mem_of_find found
  have ⟨mem, other⟩ := MemoryStore.mem_removeInstance.mp mem
  obtain rfl := parting i recorded going j mem ((h.agree j mem i recorded).network_iff.mp same)
  exact other own

end Parting

section Exec

variable {α β : Type} {b : Broker δ (Store.Outages MemoryStore)} {id token : String}
  {operation : Option String} {i : Instance}

def Ends (b : Broker δ (Store.Outages MemoryStore)) (step : Step δ (Store.Outages MemoryStore) α)
    (post : Except BrokerError α → Broker δ MemoryStore → Prop) : Prop :=
  post (step.exec b).1 (step.exec b).2.settled

namespace Ends

variable {f : α → Step δ (Store.Outages MemoryStore) β}
  {post : Except BrokerError β → Broker δ MemoryStore → Prop}

theorem bind_onStore {kind : Store.CallKind} {rename : String → BrokerError}
    {failed : Store.Failure → Except StoreError α} {call : Call StoreError MemoryStore α}
    {a : α} (breaks : Store.Breaks may b.records) (error : ∃ e, failed .broken = .error e)
    (answers : (call.exec b.records.service).1 = .ok a)
    (refused : Unreliable.admits b.records.outages kind 1 = false →
      ∀ e, post (.error e) b.settled)
    (admitted : Unreliable.admits b.records.outages kind 1 = true → ∀ left,
      Unreliable.Spends kind b.records.outages left →
      Store.Breaks may ⟨(call.exec b.records.service).2, left⟩ →
      Ends ⟨b.pool, b.director, (call.exec b.records.service).2, left⟩ (f a) post) :
    Ends b (onStore rename (Unreliable.guard kind failed call) >>= f) post := by
  unfold Ends
  cases gets : Unreliable.admits b.records.outages kind 1 with
  | false =>
    obtain ⟨o, mem, run⟩ := Unreliable.exec_guard_refused failed call gets
    obtain ⟨e, error⟩ := error
    rw [(breaks o mem).2, error] at run
    have run : (onStore rename (Unreliable.guard kind failed call)).exec b =
        (.error (rename e.chain), b) := by rw [exec_onStore, run]; rfl
    rw [Call.exec_bind_error run]
    exact refused gets _
  | true =>
    obtain ⟨left, run, spends⟩ := Unreliable.exec_guard_admitted failed call gets
    have kept := (Store.imitates_guard kind failed call error b.records breaks).1
    rw [run] at kept
    have run : (onStore rename (Unreliable.guard kind failed call)).exec b =
        (.ok a, ⟨b.pool, b.director, (call.exec b.records.service).2, left⟩) := by
      rw [exec_onStore, run, answers]; rfl
    rw [Call.exec_bind_ok run]
    exact admitted gets left spends kept

theorem findInstance {f : Option Instance → Step δ (Store.Outages MemoryStore) β}
    (breaks : Store.Breaks may b.records)
    (refused : Unreliable.admits b.records.outages .findInstance 1 = false →
      ∀ e, post (.error e) b.settled)
    (admitted : Unreliable.admits b.records.outages .findInstance 1 = true → ∀ left,
      Unreliable.Spends .findInstance b.records.outages left →
      Store.Breaks may ⟨b.records.service, left⟩ →
      Ends ⟨b.pool, b.director, b.records.service, left⟩
        (f (b.records.service.instances.find? (·.id = id))) post) :
    Ends b (read (MemoryStore.store.unreliable.findInstance id) >>= f) post :=
  bind_onStore breaks ⟨_, rfl⟩ rfl refused admitted

theorem deleteInstance {f : Unit → Step δ (Store.Outages MemoryStore) β}
    (breaks : Store.Breaks may b.records)
    (refused : Unreliable.admits b.records.outages .deleteInstance 1 = false →
      ∀ e, post (.error e) b.settled)
    (admitted : Unreliable.admits b.records.outages .deleteInstance 1 = true → ∀ left,
      Unreliable.Spends .deleteInstance b.records.outages left →
      Store.Breaks may ⟨b.records.service.removeInstance id, left⟩ →
      Ends ⟨b.pool, b.director, b.records.service.removeInstance id, left⟩ (f ()) post) :
    Ends b (delete (MemoryStore.store.unreliable.deleteInstance id) >>= f) post :=
  bind_onStore breaks ⟨_, rfl⟩ rfl refused admitted

theorem instances {f : List Instance → Step δ (Store.Outages MemoryStore) β}
    (breaks : Store.Breaks may b.records)
    (refused : Unreliable.admits b.records.outages .instances 1 = false →
      ∀ e, post (.error e) b.settled)
    (admitted : Unreliable.admits b.records.outages .instances 1 = true → ∀ left,
      Unreliable.Spends .instances b.records.outages left →
      Store.Breaks may ⟨b.records.service, left⟩ →
      Ends ⟨b.pool, b.director, b.records.service, left⟩ (f b.records.service.instances) post) :
    Ends b (read MemoryStore.store.unreliable.instances >>= f) post :=
  bind_onStore breaks ⟨_, rfl⟩ rfl refused admitted

theorem onDirector {call : Call BrokerError δ α} {a : α}
    (answers : (call.exec b.director).1 = .ok a)
    (rest : Ends { b with director := (call.exec b.director).2 } (f a) post) :
    Ends b (Step.onDirector call >>= f) post := by
  have run : (Step.onDirector call).exec b =
      (.ok a, { b with director := (call.exec b.director).2 }) := by rw [exec_onDirector, answers]
  unfold Ends
  rw [Call.exec_bind_ok run]
  exact rest

end Ends

/-- A poll with this token is to complete the deletion of this instance. -/
structure Due (d : Director δ) (b : Broker δ (Store.Outages MemoryStore)) (id : String)
    (operation : Option String) (token : String) (i : Instance) : Prop where
  asks : operation.filter (· ≠ "") = some token
  found : b.records.service.instances.find? (·.id = id) = some i
  marked : i.deprovisionTask = some token
  done : ∃ task, ((d.task token).exec b.director).1 = .ok task ∧ task.state.isDone = true

/-- The record can be dropped and the other records can then not be listed. -/
structure Strands (records : Store.Outages MemoryStore) : Prop where
  finds : Unreliable.admits records.outages .findInstance 2 = true
  deletes : Unreliable.admits records.outages .deleteInstance 1 = true
  lists : Unreliable.admits records.outages .instances 1 = false

inductive Ended (d : Director δ) (b : Broker δ (Store.Outages MemoryStore)) (id : String)
    (i : Instance) : Except BrokerError LastOperation → Broker δ MemoryStore → Prop
  | kept (e : BrokerError) (x : δ) (asked : d.Asked b.director x)
      (broken : Unreliable.admits b.records.outages .findInstance 2 = false ∨
        Unreliable.admits b.records.outages .deleteInstance 1 = false) :
      Ended d b id i (.error e) { b.settled with director := x }
  | stranded (e : BrokerError) (x : δ) (asked : d.Asked b.director x)
      (strands : Strands b.records) :
      Ended d b id i (.error e) ⟨b.pool, x, b.records.service.removeInstance id⟩
  | freed (x : δ) (asked : d.Asked b.director x)
      (lists : Unreliable.admits b.records.outages .instances 1 = true) :
      Ended d b id i (.ok (.ofTaskState .deprovision .done))
        ⟨b.pool.release i.network, x, b.records.service.removeInstance id⟩

theorem Due.ends (due : Due d b id operation token i) (breaks : Store.Breaks may b.records)
    (unused : ∀ j ∈ (b.records.service.removeInstance id).instances, j.network ≠ i.network) :
    Ends b (lastOperation (inMemory d details) id operation) (Ended d b id i) := by
  have still := Director.Asked.nothing (d := d) b.director
  obtain ⟨task, told, done⟩ := due.done
  have state : task.state = .done := by
    cases h : task.state <;> simp_all [TaskState.isDone]
  -- The poll looks for the record, and the completion looks again: two searches must get through.
  simp only [lastOperation, poll, due.asks, bind_assoc]
  refine .findInstance breaks (fun refused e => ?_) (fun finds left spends breaks => ?_)
  · refine .kept e _ still (.inl (Bool.eq_false_iff.mpr fun twice => ?_))
    exact nomatch refused.symm.trans (Unreliable.admits_of_succ twice)
  rw [due.found]
  simp only [bind_assoc]
  refine .onDirector told ?_
  simp only [due.marked, state, pure_bind, if_true]
  rw [if_pos (by decide)]
  have asked := still.task token
  simp only [completeDeprovision, bind_assoc]
  refine .findInstance breaks (fun refused e => ?_) (fun finds left' spends' breaks => ?_)
  · exact .kept e _ asked (.inl ((spends .findInstance 1).symm.trans refused))
  have twice := (spends .findInstance 1).symm.trans finds
  rw [due.found]
  simp only [bind_assoc]
  have same := (spends' .deleteInstance 1).trans (spends .deleteInstance 1)
  refine .deleteInstance breaks (fun refused e => ?_) (fun deletes left'' spends'' breaks => ?_)
  · exact .kept e _ asked (.inr (same.symm.trans refused))
  have deletes := same.symm.trans deletes
  have same := (spends'' .instances 1).trans ((spends' .instances 1).trans (spends .instances 1))
  refine .instances breaks (fun refused e => ?_) (fun lists _ _ _ => ?_)
  · exact .stranded e _ asked ⟨twice, deletes, same.symm.trans refused⟩
  have all : (b.records.service.removeInstance id).instances.all
      (fun j => decide (j.network ≠ i.network)) = true := by simpa using unused
  rw [if_pos all]
  exact .freed _ asked (same.symm.trans lists)

theorem asks_of_polled {polled : Polled}
    (saw : ((poll (inMemory d details) id operation).exec b).1 = .ok polled) :
    operation.filter (· ≠ "") = operation := by
  unfold poll at saw
  split at saw
  next token asks => rw [asks, (Option.filter_eq_some_iff.mp asks).1]
  next => cases saw

theorem lastOperation_failed (breaks : Store.Breaks may b.records)
    (undue : ∀ token i, ¬Due d b id operation token i) {e : BrokerError}
    (failed : ((lastOperation (inMemory d details) id operation).exec b).1 = .error e) :
    ∃ x, d.Asked b.director x ∧
      ((lastOperation (inMemory d details) id operation).exec b).2.settled =
        { b.settled with director := x } := by
  obtain ⟨_, looked⟩ : _ ∧ Looked d b.settled id operation
      ((poll (inMemory d details) id operation).exec b).1
      ((poll (inMemory d details) id operation).exec b).2.settled :=
    poll_yields id operation b rfl breaks
  rw [lastOperation, Call.exec_bind] at failed ⊢
  cases saw : ((poll (inMemory d details) id operation).exec b).1 with
  | error e =>
    obtain ⟨x, asked, same⟩ := looked.asked
    exact ⟨x, asked, same⟩
  | ok polled =>
    rw [saw] at failed looked
    by_cases completes : polled.completesDeletion = true
    · -- What a completed poll saw is what makes a deletion due.
      obtain ⟨token, i, task, asks, found, marked, told, done⟩ := looked.deletion completes
      exact absurd ⟨(asks_of_polled saw).trans asks, found, marked, task, told, done⟩ (undue token i)
    · simp only [completes] at failed
      cases failed

end Exec

def again (w : Broker δ MemoryStore) (x : δ) : Broker δ (Store.Outages MemoryStore) :=
  ⟨w.pool, x, w.records, []⟩

structure Completion (w : Broker δ MemoryStore) (id : String) (i : Instance)
    (result : Except BrokerError LastOperation) (w' : Broker δ MemoryStore) : Prop where
  answer : result = .ok (.ofTaskState .deprovision .done)
  records : w'.records = w.records.removeInstance id
  available : ∀ n, n ∈ w'.pool.available ↔ n ∈ w.pool.available ∨
    n = i.network ∧ n ∈ w.pool.configured ∧ ∀ o ∈ w.pool.orphans, o.2 ≠ n

variable (d details) in
/-- The record is gone, its network is not given back, and a poll has nothing to go by. -/
structure Lost (w w' : Broker δ MemoryStore) (id : String) (operation : Option String)
    (i : Instance) : Prop where
  records : w'.records = w.records.removeInstance id
  unrecorded : ∀ j ∈ w'.records.instances, j.network ≠ i.network
  unavailable : i.network ∉ w'.pool.available
  gone : ∀ x, (lastOperation (inMemory d details) id operation).exec (w'.again x) =
    (.error (.instanceGone id), w'.again x)

variable (d details) in
structure PollFailed (b : Broker δ (Store.Outages MemoryStore)) (id : String)
    (operation : Option String) (w' : Broker δ MemoryStore) : Prop where
  asked : d.Asked b.director w'.director
  pool : w'.pool = b.pool
  bindings : w'.records.bindings = b.records.service.bindings
  undone_iff : w'.records = b.records.service ↔
    ∀ token i, Due d b id operation token i → ¬Strands b.records
  repeats : w'.records = b.records.service → ∀ token i x,
    Due d (w'.again x) id operation token i →
      Ends (w'.again x) (lastOperation (inMemory d details) id operation) (Completion w' id i)
  stranded : ∀ token i, Due d b id operation token i → Strands b.records →
    Lost d details b.settled w' id operation i

section Repeat

variable {w w' : Broker δ MemoryStore} {id token : String} {operation : Option String}
  {i : Instance} {x : δ} {b : Broker δ (Store.Outages MemoryStore)}

theorem Ended.completion {result : Except BrokerError LastOperation}
    (ended : Ended d (w.again x) id i result w') : Completion w id i result w' := by
  cases ended with
  | kept e _ _ broken => rcases broken with refused | refused <;> cases refused
  | stranded e _ _ strands => exact nomatch strands.lists
  | freed =>
    refine ⟨rfl, rfl, fun n => ?_⟩
    change n ∈ (w.pool.release i.network).available ↔ _
    rw [NetworkPool.mem_available_release, NetworkPool.not_isHeld_iff]
    constructor
    · rintro (free | ⟨rfl, back⟩)
      · exact .inl free
      · exact .inr ⟨rfl, back⟩
    · rintro (free | ⟨rfl, back⟩)
      · exact .inl free
      · exact .inr ⟨rfl, back⟩

theorem Due.completion (due : Due d (w.again x) id operation token i)
    (unused : ∀ j ∈ (w.records.removeInstance id).instances, j.network ≠ i.network) :
    Ends (w.again x) (lastOperation (inMemory d details) id operation) (Completion w id i) := by
  have unbroken : Store.Breaks (fun _ => False) (w.again x).records :=
    fun _ mem => absurd mem List.not_mem_nil
  exact (due.ends unbroken unused).completion

theorem Tenancy.lost (tenancy : Tenancy b.settled) (parting : Parting b.settled)
    (due : Due d b id operation token i) (x : δ) :
    Lost d details b.settled ⟨b.pool, x, b.records.service.removeInstance id⟩ id operation i where
  records := rfl
  unrecorded := tenancy.unshared parting due.found (due.marked ▸ nofun)
  unavailable := tenancy.taken i (MemoryStore.mem_of_find due.found).1
  gone y := by
    have absent : (b.records.service.removeInstance id).instances.find? (·.id = id) = none := by
      simp [MemoryStore.removeInstance, List.find?_eq_none]
    have looked : (read (MemoryStore.store.unreliable.findInstance id)).exec
        (again ⟨b.pool, x, b.records.service.removeInstance id⟩ y) =
        (.ok none, again ⟨b.pool, x, b.records.service.removeInstance id⟩ y) := absent ▸ rfl
    simp only [lastOperation, poll, due.asks, bind_assoc]
    rw [Call.exec_bind_ok looked]
    rfl

theorem Tenancy.undone (tenancy : Tenancy b.settled) (parting : Parting b.settled)
    (asked : d.Asked b.director x)
    (spared : ∀ token i, Due d b id operation token i → ¬Strands b.records) :
    PollFailed d details b id operation { b.settled with director := x } where
  asked := asked
  pool := rfl
  bindings := rfl
  undone_iff := ⟨fun _ => spared, fun _ => rfl⟩
  stranded token i due strands := absurd strands (spared token i due)
  repeats _ token i y due := by
    have going : i.deprovisionTask ≠ none := due.marked ▸ nofun
    exact due.completion (tenancy.unshared parting due.found going)

theorem Tenancy.pollFailed (tenancy : Tenancy b.settled) (parting : Parting b.settled)
    (breaks : Store.Breaks may b.records) {e : BrokerError}
    (failed : ((lastOperation (inMemory d details) id operation).exec b).1 = .error e) :
    PollFailed d details b id operation
      ((lastOperation (inMemory d details) id operation).exec b).2.settled := by
  by_cases undue : ∀ token i, ¬Due d b id operation token i
  · obtain ⟨x, asked, same⟩ := lastOperation_failed breaks undue failed
    rw [same]
    exact tenancy.undone parting asked (fun token i due => absurd due (undue token i))
  · obtain ⟨token, i, due⟩ : ∃ token i, Due d b id operation token i := by simpa using undue
    have going : i.deprovisionTask ≠ none := due.marked ▸ nofun
    have ended : Ended d b id i ((lastOperation (inMemory d details) id operation).exec b).1
        ((lastOperation (inMemory d details) id operation).exec b).2.settled :=
      due.ends breaks (tenancy.unshared parting due.found going)
    rw [failed] at ended
    generalize ((lastOperation (inMemory d details) id operation).exec b).2.settled = w' at ended ⊢
    cases ended with
    | kept e x asked broken =>
      refine tenancy.undone parting asked fun _ _ _ strands => ?_
      rcases broken with refused | refused
      · exact nomatch refused.symm.trans strands.finds
      · exact nomatch refused.symm.trans strands.deletes
    | stranded e x asked strands =>
      have dropped : b.records.service.removeInstance id ≠ b.records.service :=
        MemoryStore.removeInstance_ne due.found
      exact {
        asked
        pool := rfl
        bindings := rfl
        undone_iff := ⟨fun same => absurd same dropped,
          fun spared => absurd strands (spared _ _ due)⟩
        repeats := fun same => absurd same dropped
        stranded := fun _ _ due _ => tenancy.lost parting due x }

end Repeat

/-- A poll that fails changes no record and no network if and only if it does not drop the record of
the deleted instance just before the others cannot be listed. -/
theorem failed_poll_undone_iff (d : Director δ) (details : DirectorDetails) (move : μ → δ → δ)
    (networks : List String) (x : δ) (events : List (Event μ)) (id : String)
    (operation : Option String) {e : BrokerError}
    (failed : ((lastOperation (inMemory d details) id operation).exec
      (run (inMemory d details) move (fresh networks x) events)).1 = .error e) :
    let b := run (inMemory d details) move (fresh networks x) events
    PollFailed d details b id operation
      ((lastOperation (inMemory d details) id operation).exec b).2.settled :=
  (Tenancy.run networks x events).pollFailed (Parting.run networks x events)
    (run_breaks (fresh_breaks _ networks x)) failed

section Waiting

open SimulatedDirector (faulty)

def polled (b : Broker (Director.Outages SimulatedDirector) (Store.Outages MemoryStore)) :
    Except BrokerError LastOperation ×
      Broker (Director.Outages SimulatedDirector) (Store.Outages MemoryStore) :=
  (lastOperation (inMemory faulty someDetails) "a" (some "2")).exec b

def waiting (kind : Store.CallKind) :
    Broker (Director.Outages SimulatedDirector) (Store.Outages MemoryStore) :=
  run (inMemory faulty someDetails) SimulatedDirector.Move.apply
    (fresh ["net1"] (SimulatedDirector.idle false true)) (comeAndGone ++ [.storeBreaks kind 0])

theorem failed_poll_undone_iff_undeleted :
    (polled (waiting .deleteInstance)).1 =
      .error (.dbDelete "storage call failed: connection reset") ∧
    (polled (waiting .deleteInstance)).2.settled.records.instances.length = 1 ∧
    PollFailed faulty someDetails (waiting .deleteInstance) "a" (some "2")
      (polled (waiting .deleteInstance)).2.settled := by
  have failed : (polled (waiting .deleteInstance)).1 =
      .error (.dbDelete "storage call failed: connection reset") :=
    Call.error_of_failure (by decide +kernel)
  refine ⟨failed, by decide +kernel, ?_⟩
  unfold polled waiting at failed ⊢
  exact failed_poll_undone_iff faulty someDetails _ _ _ _ "a" (some "2") failed

theorem failed_poll_loses_network :
    let after := (polled (waiting .instances)).2
    (polled (waiting .instances)).1 = .error (.dbRead "storage call failed: connection reset") ∧
    (waiting .instances).settled.records.instances.map (·.network) = ["net1"] ∧
    after.settled.records.instances = [] ∧ after.pool.available = [] ∧ after.pool.orphans = [] ∧
    (polled after.mended).1 = .error (.instanceGone "a") ∧
    (polled after.mended).2.pool.available = [] := by
  intro after
  exact ⟨Call.error_of_failure (by decide +kernel), by decide +kernel, by decide +kernel,
    by decide +kernel, by decide +kernel, Call.error_of_failure (by decide +kernel),
    by decide +kernel⟩

end Waiting

end Broker

end LedgerBroker
