import LedgerBroker.Proofs.Tenancy

set_option autoImplicit false

namespace LedgerBroker

namespace Broker

variable {δ μ : Type} {d : Director δ} {details : DirectorDetails} {may : Store.CallKind → Prop}
  {move : μ → δ → δ} {w w' : Broker δ MemoryStore} {id token : String}

/-- Every record with the id waits for the deletion with this token. -/
def Marks (w : Broker δ MemoryStore) (id token : String) : Prop :=
  ∀ i ∈ w.records.instances, i.id = id → i.deprovisionTask = some token

/-- Nothing is lost from one state to the next but what waited for the deletion. -/
structure Spares (id token : String) (w w' : Broker δ MemoryStore) : Prop where
  records : ∀ i ∈ w.records.instances,
    i ∈ w'.records.instances ∨ i.id = id ∧ i.deprovisionTask = some token
  bindings : w'.records.bindings = w.records.bindings
  networks : ∀ n ∈ w'.pool.available, n ∈ w.pool.available ∨
    ∃ i ∈ w.records.instances, i.id = id ∧ i.deprovisionTask = some token ∧ i.network = n

theorem Spares.refl (w : Broker δ MemoryStore) : Spares id token w w :=
  ⟨fun _ mem => .inl mem, rfl, fun _ free => .inl free⟩

theorem Completed.spares {result : Except BrokerError Unit}
    (outcome : Completed may w id result w') (marks : w.Marks id token) :
    Spares id token w w' := by
  have removed : ∀ i ∈ w.records.instances, i ∈ (w.records.removeInstance id).instances ∨
      i.id = id ∧ i.deprovisionTask = some token := by
    intro i mem
    by_cases same : i.id = id
    · exact .inr ⟨same, marks i mem same⟩
    · exact .inl (MemoryStore.mem_removeInstance.mpr ⟨mem, same⟩)
  cases outcome with
  | failed | absent => exact .refl w
  | stranded | shared => exact ⟨removed, rfl, fun _ free => .inl free⟩
  | freed i found =>
    refine ⟨removed, rfl, fun n free => ?_⟩
    have ⟨mem, same⟩ := MemoryStore.mem_of_find found
    rcases NetworkPool.mem_available_release.mp free with free | ⟨rfl, _⟩
    · exact .inl free
    · exact .inr ⟨i, mem, same, marks i mem same, rfl⟩

theorem Completed.spares_iff {result : Except BrokerError Unit}
    (outcome : Completed may w id result w') :
    Spares id token w w' ↔ w'.records = w.records ∨ w.Marks id token := by
  constructor
  · intro spares
    have marks (records : w'.records = w.records.removeInstance id) : w.Marks id token := by
      intro i mem same
      rcases spares.records i mem with left | ⟨_, marked⟩
      · rw [records] at left
        exact absurd same (MemoryStore.mem_removeInstance.mp left).2
      · exact marked
    cases outcome with
    | failed | absent => exact .inl rfl
    | stranded | shared | freed => exact .inr (marks rfl)
  · rintro (same | marks)
    · cases outcome with
      | failed | absent => exact .refl w
      | stranded i _ _ found | shared i _ found | freed i found =>
        exact absurd same (MemoryStore.removeInstance_ne found)
    · exact outcome.spares marks

namespace Marks

theorem shrink (h : w.Marks id token)
    (sub : ∀ i ∈ w'.records.instances, i ∈ w.records.instances) : w'.Marks id token :=
  fun i mem => h i (sub i mem)

theorem put (h : w.Marks id token) {pool : NetworkPool} {x : δ} {i : Instance} (other : i.id ≠ id) :
    Marks ⟨pool, x, w.records.putInstance i⟩ id token := by
  intro j mem same
  rcases MemoryStore.mem_putInstance.mp mem with ⟨old, _⟩ | rfl
  · exact h j old same
  · exact absurd same other

theorem turn (h : w.Marks id token) {action : Action}
    (other : ∀ request accepts choice now, action ≠ .provision id request accepts choice now)
    (turn : Turn d details may w action w') : w'.Marks id token := by
  obtain ⟨pool, x, r⟩ := w'
  have instances : InstanceTurn w action r := turn.instances
  cases instances with
  | same same => exact h.shrink fun i mem => same ▸ mem
  | @joined id' request accepts choice now | @recorded id' request accepts choice now =>
    have apart : id' ≠ id := fun same => other request accepts choice now (same ▸ rfl)
    exact h.put apart
  | left | completed => exact h.shrink fun i mem => (MemoryStore.mem_removeInstance.mp mem).1
  | marked p =>
    -- What is marked now did not wait before, so that it has another id.
    refine h.put fun same => ?_
    exact nomatch p.stays.symm.trans (h p.i (MemoryStore.mem_of_find p.found).1 same)

theorem keeps {events : List (Event μ)}
    (other : ∀ request accepts choice now,
      .act (.provision id request accepts choice now) ∉ events) :
    Keeps d details (fun _ => True) move events (Marks (δ := δ) · id token) where
  turn _ _ _ mem h turn :=
    h.turn (fun request accepts choice now same => other request accepts choice now (same ▸ mem)) turn
  restart _ _ _ _ h outcome := by cases outcome; exact h
  move _ _ _ h := h
  breaks _ _ _ := trivial

end Marks

def later (d : Director δ) (details : DirectorDetails) (move : μ → δ → δ)
    (b : Broker δ (Store.Outages MemoryStore)) (id token : String) (events : List (Event μ)) :
    Broker δ (Store.Outages MemoryStore) :=
  run (inMemory d details) move ((poll (inMemory d details) id (some token)).exec b).2 events

def completing (d : Director δ) (details : DirectorDetails)
    (b : Broker δ (Store.Outages MemoryStore)) (id : String) :
    Broker δ (Store.Outages MemoryStore) :=
  ((completeDeprovision (inMemory d details) id).exec b).2

theorem Tenancy.marks {polled : Polled} (h : Tenancy w)
    (looked : Looked d w id (some token) (.ok polled) w')
    (completes : polled.completesDeletion = true) : w'.Marks id token := by
  obtain ⟨token', i, _, asks, found, marked, _⟩ := looked.deletion completes
  obtain ⟨x, _, rfl⟩ := looked.asked
  obtain rfl := Option.some.inj asks
  -- The poll saw the first record with the id, and there is no second one.
  intro j mem same
  obtain rfl := h.eq_of_found mem found same
  exact marked

/-- The completion that follows a poll spares all but what the poll saw if and only if it removes
nothing or every record with the id still waits for this deletion. -/
theorem late_completion_spares {networks : List String} {x : δ} {before between : List (Event μ)}
    {polled : Polled}
    (saw : ((poll (inMemory d details) id (some token)).exec
      (run (inMemory d details) move (fresh networks x) before)).1 = .ok polled)
    (completes : polled.completesDeletion = true) :
    let b := later d details move (run (inMemory d details) move (fresh networks x) before)
      id token between
    (Spares id token b.settled (completing d details b id).settled ↔
      (completing d details b id).settled.records = b.settled.records ∨
        b.settled.Marks id token) ∧
    ((∀ request accepts choice now,
        .act (.provision id request accepts choice now) ∉ between) →
      Spares id token b.settled (completing d details b id).settled) := by
  intro b
  have begun : Store.Breaks (fun _ => True)
      (run (inMemory d details) move (fresh networks x) before).records :=
    run_breaks (fresh_breaks _ networks x)
  obtain ⟨breaks, looked⟩ := poll_yields id (some token) _ rfl begun
  rw [saw] at looked
  have marks := (Tenancy.run networks x before).marks looked completes
  have outcome : Completed (fun _ => True) b.settled id _ (completing d details b id).settled :=
    (completeDeprovision_yields id b rfl (run_breaks breaks)).2
  refine ⟨outcome.spares_iff, fun other => outcome.spares ?_⟩
  exact (run_keeps (Marks.keeps other) breaks marks).2

section Reuse

open SimulatedDirector (faulty)

def comeAndGone : List (Event SimulatedDirector.Move) := [
  .act (.provision "a" (orderOf .permissionless) true 0 firstDay),
  .act (.deprovision "a" true firstDay)]

def reuse : List (Event SimulatedDirector.Move) := [
  .act (.lastOperation "a" (some "2")),
  .act (.provision "a" (orderOf .permissionless) true 0 firstDay)]

def polledAfter (before between : List (Event SimulatedDirector.Move)) :
    Broker (Director.Outages SimulatedDirector) (Store.Outages MemoryStore) :=
  later faulty someDetails SimulatedDirector.Move.apply
    (run (inMemory faulty someDetails) SimulatedDirector.Move.apply
      (fresh ["net1"] (SimulatedDirector.idle false true)) before) "a" "2" between

theorem late_completion_spares_at_once :
    ((poll (inMemory faulty someDetails) "a" (some "2")).exec
      (run (inMemory faulty someDetails) SimulatedDirector.Move.apply
        (fresh ["net1"] (SimulatedDirector.idle false true)) comeAndGone)).1 =
      .ok ⟨.ofTaskState .deprovision .done, true⟩ ∧
    (polledAfter comeAndGone [.act .refresh]).settled.records.instances.length = 1 ∧
    Spares "a" "2" (polledAfter comeAndGone [.act .refresh]).settled
      (completing faulty someDetails (polledAfter comeAndGone [.act .refresh]) "a").settled := by
  have saw : ((poll (inMemory faulty someDetails) "a" (some "2")).exec
      (run (inMemory faulty someDetails) SimulatedDirector.Move.apply
        (fresh ["net1"] (SimulatedDirector.idle false true)) comeAndGone)).1 =
      .ok ⟨.ofTaskState .deprovision .done, true⟩ := Call.ok_of_toOption (by decide +kernel)
  exact ⟨saw, by decide +kernel, (late_completion_spares saw rfl).2 (by simp)⟩

def newcomer : Instance :=
  Instance.new "a" "fabric-a" "net1" (Numeral.decimal 3) (orderOf .permissionless) firstDay

def reused : Broker (Director.Outages SimulatedDirector) (Store.Outages MemoryStore) :=
  polledAfter comeAndGone reuse

theorem reused_recorded : reused.settled.records.instances = [newcomer] := by
  decide +kernel

def swept : Broker (Director.Outages SimulatedDirector) (Store.Outages MemoryStore) :=
  completing faulty someDetails reused "a"

theorem swept_running :
    swept.director.service.network? newcomer.deployment = some newcomer.network := by
  decide +kernel

theorem swept_available : swept.pool.available = [newcomer.network] := by
  decide +kernel

theorem late_completion_removes_newcomer :
    newcomer ∈ reused.settled.records.instances ∧ newcomer.deprovisionTask = none ∧
      newcomer ∉ swept.settled.records.instances ∧
      swept.director.service.network? newcomer.deployment = some newcomer.network ∧
      newcomer.network ∈ swept.pool.available := by
  have gone : swept.settled.records.instances = [] := by decide +kernel
  rw [reused_recorded, gone, swept_available]
  exact ⟨List.mem_cons_self, rfl, List.not_mem_nil, swept_running, List.mem_cons_self⟩

end Reuse

end Broker

end LedgerBroker
