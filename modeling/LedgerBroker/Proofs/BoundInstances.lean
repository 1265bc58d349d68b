import LedgerBroker.Proofs.Recording
import LedgerBroker.Proofs.Tenancy
import Mathlib.Data.List.Induction

set_option autoImplicit false

namespace LedgerBroker

namespace Broker

variable {δ μ : Type} {d : Director δ} {details : DirectorDetails} {may : Store.CallKind → Prop}
  {move : μ → δ → δ} {w w' : Broker δ MemoryStore} {binding : Binding} {i : Instance}

theorem run_snoc (s : Services δ (Store.Outages MemoryStore))
    (b : Broker δ (Store.Outages MemoryStore)) (events : List (Event μ)) (e : Event μ) :
    run s move b (events ++ [e]) = happen s move (run s move b events) e := by
  simp [run]

structure Holds (w : Broker δ MemoryStore) (binding : Binding) (i : Instance) : Prop where
  recorded : i ∈ w.records.instances
  own : i.id = binding.instanceId
  stays : i.deprovisionTask = none

namespace Holds

theorem keep (h : w.Holds binding i) (recorded : i ∈ w'.records.instances) :
    w'.Holds binding i := ⟨recorded, h.own, h.stays⟩

theorem turn (h : w.Holds binding i) (tenancy : Tenancy w) (bound : binding ∈ w.records.bindings)
    {action : Action} (turn : Turn d details may w action w') : w'.Holds binding i := by
  obtain ⟨pool, x, r⟩ := w'
  have instances : InstanceTurn w action r := turn.instances
  cases instances with
  | same same => exact h.keep (same ▸ h.recorded)
  | joined plan live id_new =>
    exact h.keep (MemoryStore.mem_putInstance.mpr (.inl ⟨h.recorded, id_new i h.recorded⟩))
  | recorded p =>
    exact h.keep (MemoryStore.mem_putInstance.mpr (.inl ⟨h.recorded, p.id_new i h.recorded⟩))
  -- Whoever leaves or is marked has no binding, and so has another id.
  | left unbound =>
    have other : i.id ≠ _ := h.own ▸ unbound binding bound
    exact h.keep (MemoryStore.mem_removeInstance.mpr ⟨h.recorded, other⟩)
  | marked p =>
    have other : i.id ≠ p.i.id := by
      rw [h.own, (MemoryStore.mem_of_find p.found).2]
      exact p.unbound binding bound
    exact h.keep (MemoryStore.mem_putInstance.mpr (.inl ⟨h.recorded, other⟩))
  | @completed id _ j found going =>
    have other : i.id ≠ id := by
      intro same
      obtain rfl := tenancy.eq_of_found h.recorded found same
      exact going h.stays
    exact h.keep (MemoryStore.mem_removeInstance.mpr ⟨h.recorded, other⟩)

theorem change (h : w.Holds binding i) (tenancy : Tenancy w) (bound : binding ∈ w.records.bindings)
    {e : Event μ} (change : Change d details may w move e w') : w'.Holds binding i := by
  cases change with
  | acted turn => exact h.turn tenancy bound turn
  | restarted found => cases found; exact h.keep h.recorded
  | stayed | moved | broken | mended => exact h.keep h.recorded

end Holds

structure Binds (d : Director δ) (w : Broker δ MemoryStore) (binding : Binding) (i : Instance)
    (e : Event μ) : Prop where
  asked : ∃ request, e = .act (.bind binding.instanceId binding.id request binding.createdAt)
  holds : w.Holds binding i
  deployed : ∃ task, ((d.task i.provisionTask).exec w.director).1 = .ok task ∧
    task.state.isDone = true

theorem Change.binds {e : Event μ} (change : Change d details may w move e w')
    (new : binding ∉ w.records.bindings) (bound : binding ∈ w'.records.bindings) :
    ∃ i, Binds d w binding i e ∧ w'.Holds binding i := by
  cases change with
  | restarted found => cases found; exact absurd bound new
  | stayed | moved | broken | mended => exact absurd bound new
  | acted turn =>
    cases turn with
    | provision outcome => cases outcome <;> exact absurd bound new
    | deprovision outcome => cases outcome <;> exact absurd bound new
    | looked outcome =>
      obtain ⟨x, _, rfl⟩ := outcome.asked
      exact absurd bound new
    | completed looked _ outcome =>
      obtain ⟨x, _, rfl⟩ := looked.asked
      cases outcome <;> exact absurd bound new
    | refresh outcome => cases outcome <;> exact absurd bound new
    | unbind outcome =>
      cases outcome with
      | refused => exact absurd bound new
      | unbound => exact absurd (MemoryStore.mem_removeBinding.mp bound).1 new
    | @bind id bindingId request now _ _ outcome =>
      cases outcome with
      | refused => exact absurd bound new
      | bound i task ips x asked found stays deployed done =>
        rcases MemoryStore.mem_putBinding.mp bound with ⟨old, _⟩ | rfl
        · exact absurd old new
        · have ⟨mem, own⟩ := MemoryStore.mem_of_find found
          have holds : w.Holds ⟨bindingId, id, now⟩ i := ⟨mem, own, stays⟩
          exact ⟨i, ⟨⟨request, rfl⟩, holds, task, deployed, done⟩, holds.keep mem⟩

/-- An event bound an application to an instance, and from then on both records were kept. -/
structure BoundBy (d : Director δ) (reach : List (Event μ) → Broker δ MemoryStore)
    (events : List (Event μ)) (binding : Binding) (i : Instance) (before : List (Event μ))
    (e : Event μ) : Prop where
  during : before ++ [e] <+: events
  new : binding ∉ (reach before).records.bindings
  binds : Binds d (reach before) binding i e
  since : ∀ part, before ++ [e] <+: part → part <+: events →
    binding ∈ (reach part).records.bindings ∧ (reach part).Holds binding i

theorem boundBy_of_mem {reach : List (Event μ) → Broker δ MemoryStore}
    (empty : (reach []).records.bindings = []) (tenancy : ∀ events, Tenancy (reach events))
    (change : ∀ events e, Change d details may (reach events) move e (reach (events ++ [e])))
    (events : List (Event μ)) (mem : binding ∈ (reach events).records.bindings) :
    ∃ i before e, BoundBy d reach events binding i before e := by
  -- Either the last event made the binding, or the binding was there before it and its instance
  -- came through the event.
  induction events using List.reverseRecOn with
  | nil =>
    rw [empty] at mem
    exact absurd mem List.not_mem_nil
  | append_singleton events e ih =>
    by_cases old : binding ∈ (reach events).records.bindings
    · obtain ⟨i, before, e', bound⟩ := ih old
      have holds := (bound.since events bound.during (List.prefix_refl _)).2
      refine ⟨i, before, e', bound.during.trans (List.prefix_append _ _), bound.new, bound.binds,
        fun part early late => ?_⟩
      rcases List.prefix_concat_iff.mp late with rfl | inside
      · exact ⟨mem, holds.change (tenancy events) old (change events e)⟩
      · exact bound.since part early inside
    · obtain ⟨i, binds, holds⟩ := (change events e).binds old mem
      refine ⟨i, events, e, List.prefix_refl _, old, binds, fun part early late => ?_⟩
      obtain rfl : events ++ [e] = part := early.eq_of_length_le late.length_le
      exact ⟨mem, holds⟩

def Unneeded (w : Broker δ MemoryStore) (deployment : String) : Prop :=
  ∀ i ∈ w.records.instances, i.deployment = deployment →
    ∀ binding ∈ w.records.bindings, binding.instanceId ≠ i.id

theorem Departure.unneeded {id : String} (p : Departure w id) : w.Unneeded p.i.deployment := by
  intro i mem same binding bound
  rw [p.alone i mem same, (MemoryStore.mem_of_find p.found).2]
  exact p.unbound binding bound

/-- The Director is told to delete nothing, or a deployment that no application is bound to. -/
inductive Deletes (w w' : Broker (δ × List String) MemoryStore) : Prop
  | nothing (same : w'.director.2 = w.director.2)
  | one (name : String) (told : w'.director.2 = name :: w.director.2)
      (bindings : w'.records.bindings = w.records.bindings) (before : w.Unneeded name)
      (after : w'.Unneeded name)

theorem Departure.deletes {w : Broker (δ × List String) MemoryStore} {id : String}
    (p : Departure w id) {x : δ × List String} (asked : d.recording.Asked w.director x)
    {records : MemoryStore} (bindings : records.bindings = w.records.bindings)
    (recorded : ∀ i ∈ records.instances, ∃ j ∈ w.records.instances,
      j.id = i.id ∧ j.deployment = i.deployment) :
    Deletes w ⟨w.pool, ((d.recording.deleteDeployment p.i.deployment).exec x).2, records⟩ := by
  refine .one p.i.deployment ?_ bindings p.unneeded (fun i mem same binding bound => ?_)
  · exact congrArg (p.i.deployment :: ·) (Director.recorded_of_asked asked)
  · obtain ⟨j, mem', own, on⟩ := recorded i mem
    rw [bindings] at bound
    exact own ▸ p.unneeded j mem' (on.trans same) binding bound

theorem Change.deletes {w w' : Broker (δ × List String) MemoryStore} {e : Event μ}
    (change : Change d.recording details may w (Director.unnoted move) e w') : Deletes w w' := by
  cases change with
  | restarted found =>
    cases found with
    | refreshed _ _ x asked => exact .nothing (Director.recorded_of_asked asked)
  | stayed | moved | broken | mended => exact .nothing rfl
  | acted turn =>
    cases turn with
    | provision outcome => cases outcome <;> exact .nothing rfl
    | deprovision outcome =>
      cases outcome with
      | unchanged _ x asked | left _ _ x asked =>
        exact .nothing (Director.recorded_of_asked asked)
      | notDeleted p x asked | unmarked p x asked =>
        exact p.deletes asked rfl (fun i mem => ⟨i, mem, rfl, rfl⟩)
      | marked p x asked =>
        refine p.deletes asked rfl (fun i mem => ?_)
        rcases MemoryStore.mem_putInstance.mp mem with ⟨old, _⟩ | rfl
        · exact ⟨i, old, rfl, rfl⟩
        · exact ⟨p.i, (MemoryStore.mem_of_find p.found).1, rfl, rfl⟩
    | looked outcome =>
      obtain ⟨x, asked, rfl⟩ := outcome.asked
      exact .nothing (Director.recorded_of_asked asked)
    | completed looked _ outcome =>
      obtain ⟨x, asked, rfl⟩ := looked.asked
      cases outcome <;> exact .nothing (Director.recorded_of_asked asked)
    | bind outcome =>
      cases outcome with
      | refused e x asked | bound _ _ _ x asked =>
        exact .nothing (Director.recorded_of_asked asked)
    | unbind outcome => cases outcome <;> exact .nothing rfl
    | refresh outcome =>
      cases outcome with
      | failed e x asked | refreshed _ _ x asked =>
        exact .nothing (Director.recorded_of_asked asked)

theorem change_run (d : Director δ) (details : DirectorDetails) (move : μ → δ → δ)
    (networks : List String) (x : δ) (events : List (Event μ)) (e : Event μ) :
    Change d details (fun _ => True)
      (run (inMemory d details) move (fresh networks x) events).settled move e
      (run (inMemory d details) move (fresh networks x) (events ++ [e])).settled := by
  rw [run_snoc]
  exact (happen_change (fun _ _ _ => trivial) (run_breaks (fresh_breaks _ networks x))).2

/-- A binding was made when its instance was deployed, and the instance has been recorded and not
deleted ever since; and no deployment is deleted that a binding is for. -/
theorem run_bindings_safe (d : Director δ) (details : DirectorDetails) (move : μ → δ → δ)
    (networks : List String) (x : δ) (events : List (Event μ)) :
    let reach (part : List (Event μ)) :=
      (run (inMemory d details) move (fresh networks x) part).settled
    let noted (part : List (Event μ)) :=
      (run (inMemory d.recording details) (Director.unnoted move) (fresh networks (x, []))
        part).settled
    (∀ binding ∈ (reach events).records.bindings,
      ∃ i before e, BoundBy d reach events binding i before e) ∧
    (noted events).forget = reach events ∧
    ∀ before e, before ++ [e] <+: events → Deletes (noted before) (noted (before ++ [e])) := by
  intro reach noted
  refine ⟨fun binding mem => ?_, ?_, fun before e _ => ?_⟩
  · exact boundBy_of_mem rfl (Tenancy.run networks x) (change_run d details move networks x) events
      mem
  · have same := forget_run (inMemory d details) move (fresh networks (x, [])) events
    exact congrArg settled same
  · exact (change_run d.recording details _ networks (x, []) before e).deletes

end Broker

end LedgerBroker
