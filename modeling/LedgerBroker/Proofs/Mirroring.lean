import LedgerBroker.Proofs.Creation
import LedgerBroker.Proofs.RedisRecords

set_option autoImplicit false

namespace LedgerBroker

inductive Alike {ε α β : Type} (R : α → β → Prop) : Except ε α → Except ε β → Prop
  | ok {a : α} {b : β} (related : R a b) : Alike R (.ok a) (.ok b)
  | error (e : ε) : Alike R (.error e) (.error e)

theorem Alike.mapError {ε ε' α β : Type} {R : α → β → Prop} {x : Except ε α} {y : Except ε β}
    (alike : Alike R x y) (f : ε → ε') : Alike R (x.mapError f) (y.mapError f) := by
  cases alike with
  | ok related => exact .ok related
  | error e => exact .error (f e)

theorem Alike.eq {ε α : Type} {x y : Except ε α} (alike : Alike Eq x y) : x = y := by
  cases alike with
  | ok same => rw [same]
  | error => rfl

section Keyed

variable {α : Type} {key : α → String} {l : List α} {a : α} {id : String}

theorem find_remove (other : String) :
    (l.filter (key · ≠ id)).find? (key · = other) =
      if other = id then none else l.find? (key · = other) := by
  rw [List.find?_filter]
  by_cases same : other = id
  · subst same
    simp
  · have both (b : α) : decide (decide (key b ≠ id) = true ∧ decide (key b = other) = true) =
        decide (key b = other) := by
      by_cases own : key b = other <;> simp [own, same]
    simp only [both, if_neg same]

theorem find_put (other : String) :
    (l.filter (key · ≠ key a) ++ [a]).find? (key · = other) =
      if other = key a then some a else l.find? (key · = other) := by
  rw [List.find?_append, find_remove]
  by_cases same : other = key a <;> simp [same, eq_comm]

theorem once_remove (once : (l.map key).Nodup) : ((l.filter (key · ≠ id)).map key).Nodup :=
  once.sublist (List.filter_sublist.map key)

theorem once_put (once : (l.map key).Nodup) :
    ((l.filter (key · ≠ key a) ++ [a]).map key).Nodup := by
  rw [List.map_append, List.nodup_append]
  refine ⟨once_remove once, by simp, ?_⟩
  simp only [List.mem_map, List.mem_filter, List.mem_singleton, decide_eq_true_eq]
  rintro _ ⟨b, ⟨_, apart⟩, rfl⟩ _ ⟨_, rfl, rfl⟩ same
  exact apart same

theorem find_iff_mem (once : (l.map key).Nodup) :
    l.find? (key · = key a) = some a ↔ a ∈ l := by
  induction l with
  | nil => simp
  | cons b l ih =>
    obtain ⟨fresh, once⟩ := List.nodup_cons.mp once
    by_cases own : key b = key a
    · have absent : a ∉ l := fun mem => fresh (own ▸ List.mem_map_of_mem mem)
      simp [own, absent, eq_comm]
    · have other : a ≠ b := fun same => own (congrArg key same.symm)
      simp [own, other, ih once]

end Keyed

namespace MemoryStore

open RedisStore (Contents)

variable {m : MemoryStore}

def Uniform (m : MemoryStore) : Prop :=
  ∀ i ∈ m.instances, ∀ j ∈ m.instances, i.deployment = j.deployment →
    i.network = j.network ∧ i.provisionTask = j.provisionTask

theorem Uniform.put (uniform : m.Uniform) {i : Instance}
    (fits : ∀ j ∈ m.instances, i.deployment = j.deployment →
      i.network = j.network ∧ i.provisionTask = j.provisionTask) : (m.putInstance i).Uniform := by
  intro j mem k mem' same
  rcases mem_putInstance.mp mem with ⟨old, _⟩ | rfl <;>
    rcases mem_putInstance.mp mem' with ⟨old', _⟩ | rfl
  · exact uniform j old k old' same
  · exact (fits j old same.symm).imp Eq.symm Eq.symm
  · exact fits k old' same
  · exact ⟨rfl, rfl⟩

theorem Uniform.remove (uniform : m.Uniform) (id : String) : (m.removeInstance id).Uniform :=
  fun i mem j mem' => uniform i (mem_removeInstance.mp mem).1 j (mem_removeInstance.mp mem').1

def contents (m : MemoryStore) : Contents where
  instance? id := m.instances.find? (·.id = id)
  binding? id := m.bindings.find? (·.id = id)
  filed owner id := ∃ b ∈ m.bindings, b.id = id ∧ b.instanceId = owner

theorem contents_putInstance (i : Instance) :
    (m.putInstance i).contents = m.contents.setInstance i.id (some i) :=
  Contents.ext (funext fun other => find_put other) rfl rfl

theorem contents_removeInstance (id : String) :
    (m.removeInstance id).contents = m.contents.setInstance id none :=
  Contents.ext (funext fun other => find_remove other) rfl rfl

theorem filed_putBinding {b : Binding}
    (own : ∀ c ∈ m.bindings, c.id = b.id → c.instanceId = b.instanceId) (owner id : String) :
    (m.putBinding b).contents.filed owner id ↔
      (m.contents.setBinding b.id (some b) b.instanceId).filed owner id := by
  simp only [contents, Contents.setBinding, mem_putBinding]
  by_cases same : id = b.id
  · subst same
    by_cases under : owner = b.instanceId
    · simp only [under, true_and, if_true, Option.isSome_some, iff_true]
      exact ⟨b, .inr rfl, rfl, rfl⟩
    · simp only [under, false_and, if_false]
      constructor
      · rintro ⟨c, ⟨_, apart⟩ | rfl, same, rfl⟩
        · exact absurd same apart
        · exact absurd rfl under
      · rintro ⟨c, mem, same, rfl⟩
        exact absurd (own c mem same) under
  · simp only [same, and_false, if_false]
    constructor
    · rintro ⟨c, ⟨old, _⟩ | rfl, rfl, rfl⟩
      · exact ⟨c, old, rfl, rfl⟩
      · exact absurd rfl same
    · rintro ⟨c, old, rfl, rfl⟩
      exact ⟨c, .inl ⟨old, same⟩, rfl, rfl⟩

theorem contents_putBinding {b : Binding}
    (own : ∀ c ∈ m.bindings, c.id = b.id → c.instanceId = b.instanceId) :
    (m.putBinding b).contents = m.contents.setBinding b.id (some b) b.instanceId :=
  Contents.ext rfl (funext fun other => find_put other)
    (funext fun owner => funext fun id => propext (filed_putBinding own owner id))

theorem filed_removeBinding (once : (m.bindings.map (·.id)).Nodup) {b : Binding} {id : String}
    (stored : m.bindings.find? (·.id = id) = some b) (owner other : String) :
    (m.removeBinding id).contents.filed owner other ↔
      (m.contents.setBinding id none b.instanceId).filed owner other := by
  simp only [contents, Contents.setBinding, mem_removeBinding]
  by_cases same : other = id
  · subst same
    have only : ∀ c ∈ m.bindings, c.id = other → c = b := by
      rintro c mem rfl
      exact Option.some.inj (((find_iff_mem once).mpr mem).symm.trans stored)
    by_cases under : owner = b.instanceId
    · simp only [under, true_and, if_true, Option.isSome_none, Bool.false_eq_true, iff_false]
      rintro ⟨c, ⟨_, apart⟩, same, _⟩
      exact apart same
    · simp only [under, false_and, if_false]
      constructor
      · rintro ⟨c, ⟨_, apart⟩, same, _⟩
        exact absurd same apart
      · rintro ⟨c, mem, same, rfl⟩
        exact absurd (congrArg Binding.instanceId (only c mem same)) under
  · simp only [same, and_false, if_false]
    constructor
    · rintro ⟨c, ⟨mem, _⟩, rfl, rfl⟩
      exact ⟨c, mem, rfl, rfl⟩
    · rintro ⟨c, mem, rfl, rfl⟩
      exact ⟨c, ⟨mem, same⟩, rfl, rfl⟩

theorem contents_removeBinding (once : (m.bindings.map (·.id)).Nodup) (id : String) :
    (m.removeBinding id).contents = m.contents.dropBinding id := by
  simp only [Contents.dropBinding]
  split
  next absent =>
    have others : m.bindings.filter (·.id ≠ id) = m.bindings := by
      rw [List.filter_eq_self]
      simpa [contents, List.find?_eq_none] using absent
    simp only [removeBinding, others]
  next b stored =>
    exact Contents.ext rfl (funext fun other => find_remove other)
      (funext fun owner => funext fun other => propext (filed_removeBinding once stored owner other))

end MemoryStore

namespace RedisStore

open Redis (Server)

structure Mirrors (s : Server) (m : MemoryStore) : Prop where
  holds : Holds s m.contents
  uniform : m.Uniform
  instances_once : (m.instances.map (·.id)).Nodup
  bindings_once : (m.bindings.map (·.id)).Nodup

def Answers {α β : Type} (R : α → β → Prop) (call : Call StoreError Server α) (m : MemoryStore)
    (call' : Call StoreError MemoryStore β) : Prop :=
  ∀ s, Mirrors s m →
    Alike R (call.exec s).1 (call'.exec m).1 ∧ Mirrors (call.exec s).2 (call'.exec m).2

namespace Mirrors

variable {s t : Server} {m : MemoryStore}

theorem start (listing : Redis.Listing) : Mirrors { listing } {} where
  holds := by
    have nothing : MemoryStore.contents {} = .empty := by
      ext <;> simp [MemoryStore.contents, Contents.empty]
    exact nothing ▸ .empty listing
  uniform _ mem := absurd mem List.not_mem_nil
  instances_once := .nil
  bindings_once := .nil

theorem of_still (mirrors : Mirrors s m) (still : Still s t) : Mirrors t m :=
  { mirrors with holds := mirrors.holds.of_still still }

theorem putInstance (mirrors : Mirrors s m) {i : Instance}
    (holds : Holds t (m.contents.setInstance i.id (some i)))
    (uniform : (m.putInstance i).Uniform) : Mirrors t (m.putInstance i) where
  holds := MemoryStore.contents_putInstance i ▸ holds
  uniform := uniform
  instances_once := once_put mirrors.instances_once
  bindings_once := mirrors.bindings_once

theorem removeInstance (mirrors : Mirrors s m) {id : String}
    (holds : Holds t (m.contents.setInstance id none)) : Mirrors t (m.removeInstance id) where
  holds := MemoryStore.contents_removeInstance id ▸ holds
  uniform := mirrors.uniform.remove id
  instances_once := once_remove mirrors.instances_once
  bindings_once := mirrors.bindings_once

theorem putBinding (mirrors : Mirrors s m) {b : Binding}
    (own : ∀ c ∈ m.bindings, c.id = b.id → c.instanceId = b.instanceId)
    (holds : Holds t (m.contents.setBinding b.id (some b) b.instanceId)) :
    Mirrors t (m.putBinding b) where
  holds := MemoryStore.contents_putBinding own ▸ holds
  uniform := mirrors.uniform
  instances_once := mirrors.instances_once
  bindings_once := once_put mirrors.bindings_once

theorem removeBinding (mirrors : Mirrors s m) {id : String}
    (holds : Holds t (m.contents.dropBinding id)) : Mirrors t (m.removeBinding id) where
  holds := MemoryStore.contents_removeBinding mirrors.bindings_once id ▸ holds
  uniform := mirrors.uniform
  instances_once := mirrors.instances_once
  bindings_once := once_remove mirrors.bindings_once

theorem listed_instances (mirrors : Mirrors s m) :
    Lists (·.id) (fun i => m.contents.instance? i.id = some i) m.instances :=
  ⟨fun _ => (find_iff_mem mirrors.instances_once).symm, mirrors.instances_once⟩

theorem listed_bindings (mirrors : Mirrors s m) (owner : String) :
    Lists (·.id) (fun b => m.contents.filed owner b.id ∧ m.contents.binding? b.id = some b)
      (m.bindings.filter (·.instanceId = owner)) where
  mem b := by
    have stored : m.contents.binding? b.id = some b ↔ b ∈ m.bindings :=
      find_iff_mem mirrors.bindings_once
    rw [stored, List.mem_filter, decide_eq_true_eq]
    constructor
    · rintro ⟨mem, own⟩
      exact ⟨⟨b, mem, rfl, own⟩, mem⟩
    · rintro ⟨⟨c, mem', same, own⟩, mem⟩
      have found := (find_iff_mem mirrors.bindings_once).mpr mem'
      rw [same] at found
      obtain rfl := Option.some.inj (found.symm.trans (stored.mpr mem))
      exact ⟨mem, own⟩
  once := mirrors.bindings_once.sublist (List.filter_sublist.map _)

end Mirrors

namespace Answers

variable {m : MemoryStore}

theorem findInstance (id : String) :
    Answers Eq (store.findInstance id) m (MemoryStore.store.findInstance id) := by
  intro s mirrors
  obtain ⟨t, found, still⟩ := mirrors.holds.findInstance id
  rw [store, found]
  exact ⟨.ok rfl, mirrors.of_still still⟩

theorem findBinding (id : String) :
    Answers Eq (store.findBinding id) m (MemoryStore.store.findBinding id) := by
  intro s mirrors
  obtain ⟨t, found, still⟩ := mirrors.holds.findBinding id
  rw [store, found]
  exact ⟨.ok rfl, mirrors.of_still still⟩

theorem instances : Answers List.Perm store.instances m MemoryStore.store.instances := by
  intro s mirrors
  obtain ⟨l, t, listed, still, lists⟩ := mirrors.holds.listInstances
  rw [store, listed]
  exact ⟨.ok (lists.perm mirrors.listed_instances), mirrors.of_still still⟩

theorem instancesOn (deployment : String) :
    Answers List.Perm (store.instancesOn deployment) m
      (MemoryStore.store.instancesOn deployment) := by
  intro s mirrors
  obtain ⟨l, t, listed, still, lists⟩ := mirrors.holds.listInstances
  have perm := lists.perm mirrors.listed_instances
  rw [Store.instancesOn, store, Call.exec_bind_ok listed]
  exact ⟨.ok (perm.filter _), mirrors.of_still still⟩

theorem bindings (owner : String) :
    Answers List.Perm (store.bindings owner) m (MemoryStore.store.bindings owner) := by
  intro s mirrors
  obtain ⟨l, t, listed, still, lists⟩ := mirrors.holds.listBindings owner
  rw [store, listed]
  exact ⟨.ok (lists.perm (mirrors.listed_bindings owner)), mirrors.of_still still⟩

theorem saveInstance {i : Instance} (uniform : (m.putInstance i).Uniform) :
    Answers Eq (store.saveInstance i) m (MemoryStore.store.saveInstance i) := by
  intro s mirrors
  cases valid : i.validate with
  | error fault =>
    simp only [store, RedisStore.saveInstance, MemoryStore.store, MemoryStore.save, valid]
    exact ⟨.error _, mirrors⟩
  | ok _ =>
    obtain ⟨t, saved, holds⟩ := mirrors.holds.saveInstance valid
    simp only [store, saved, MemoryStore.store, MemoryStore.save, valid]
    exact ⟨.ok rfl, mirrors.putInstance holds uniform⟩

theorem deleteInstance (id : String) :
    Answers Eq (store.deleteInstance id) m (MemoryStore.store.deleteInstance id) := by
  intro s mirrors
  obtain ⟨t, deleted, holds⟩ := mirrors.holds.deleteInstance id
  rw [store, deleted]
  exact ⟨.ok rfl, mirrors.removeInstance holds⟩

theorem saveBinding {b : Binding}
    (own : ∀ c ∈ m.bindings, c.id = b.id → c.instanceId = b.instanceId) :
    Answers Eq (store.saveBinding b) m (MemoryStore.store.saveBinding b) := by
  intro s mirrors
  cases valid : b.validate with
  | error fault =>
    simp only [store, RedisStore.saveBinding, MemoryStore.store, MemoryStore.save, valid]
    exact ⟨.error _, mirrors⟩
  | ok _ =>
    obtain ⟨t, saved, holds⟩ := mirrors.holds.saveBinding valid
    simp only [store, saved, MemoryStore.store, MemoryStore.save, valid]
    exact ⟨.ok rfl, mirrors.putBinding own holds⟩

theorem deleteBinding (id : String) :
    Answers Eq (store.deleteBinding id) m (MemoryStore.store.deleteBinding id) := by
  intro s mirrors
  obtain ⟨t, deleted, holds⟩ := mirrors.holds.deleteBinding id
  rw [store, deleted]
  exact ⟨.ok rfl, mirrors.removeBinding holds⟩

end Answers

end RedisStore

end LedgerBroker
