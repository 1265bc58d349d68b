import LedgerBroker.Proofs.RedisKeys
import LedgerBroker.Proofs.StoredRecords

set_option autoImplicit false

namespace LedgerBroker

structure Lists {α : Type} (id : α → String) (kind : α → Prop) (l : List α) : Prop where
  mem : ∀ a, a ∈ l ↔ kind a
  once : (l.map id).Nodup

namespace Lists

variable {α : Type} {id : α → String} {kind kind' : α → Prop} {l l' : List α}

theorem congr (lists : Lists id kind l) (iff : ∀ a, kind a ↔ kind' a) : Lists id kind' l :=
  ⟨fun a => (lists.mem a).trans (iff a), lists.once⟩

theorem nodup (lists : Lists id kind l) : l.Nodup :=
  List.Pairwise.of_map id (fun _ _ apart same => apart (congrArg id same)) lists.once

theorem perm (lists : Lists id kind l) (lists' : Lists id kind l') : l.Perm l' :=
  (List.perm_ext_iff_of_nodup lists.nodup lists'.nodup).mpr
    fun a => (lists.mem a).trans (lists'.mem a).symm

theorem filterMap {ids : List String} (once : ids.Nodup) {record? : String → Option α}
    (own : ∀ name a, record? name = some a → id a = name) :
    Lists id (fun a => id a ∈ ids ∧ record? (id a) = some a) (ids.filterMap record?) where
  mem a := by
    rw [List.mem_filterMap]
    constructor
    · rintro ⟨name, mem, found⟩
      obtain rfl := own name a found
      exact ⟨mem, found⟩
    · exact fun h => ⟨id a, h⟩
  once := by
    -- No id is left twice, since each one gives at most the record that it is the id of.
    have names : (ids.filterMap record?).map id = ids.filter (record? · |>.isSome) := by
      clear once
      induction ids with
      | nil => rfl
      | cons name rest ih =>
        cases found : record? name with
        | none => simp [found, ih]
        | some a => simp [found, ih, own name a found]
    exact names ▸ once.filter _

end Lists

namespace RedisStore

open Redis (Server Entry)

/-- The records a store keeps, and which ids are in the set of each instance, stored or not. -/
@[ext]
structure Contents where
  instance? : String → Option Instance
  binding? : String → Option Binding
  filed : String → String → Prop

namespace Contents

def empty : Contents := ⟨fun _ => none, fun _ => none, fun _ _ => False⟩

def setInstance (c : Contents) (id : String) (i : Option Instance) : Contents :=
  { c with instance? := fun other => if other = id then i else c.instance? other }

def setBinding (c : Contents) (id : String) (b : Option Binding) (owner : String) : Contents :=
  { c with
    binding? := fun other => if other = id then b else c.binding? other
    filed := fun i other => if i = owner ∧ other = id then b.isSome = true else c.filed i other }

def dropBinding (c : Contents) (id : String) : Contents :=
  match c.binding? id with
  | none => c
  | some b => c.setBinding id none b.instanceId

end Contents

structure Holds (s : Server) (c : Contents) : Prop where
  faithful : s.refused = []
  instance_ : ∀ id, s.keys.lookup (instanceKey id) =
    (c.instance? id).map fun i => .string (text i.json)
  binding : ∀ id, s.keys.lookup (bindingKey id) =
    (c.binding? id).map fun b => .string (text b.json)
  instances : s.keys.Has instancesKey fun id => (c.instance? id).isSome
  bindings : ∀ i, s.keys.Has (bindingsKey i) (c.filed i)
  instance_id : ∀ id i, c.instance? id = some i → i.id = id
  binding_id : ∀ id b, c.binding? id = some b → b.id = id

structure Still (s t : Server) : Prop where
  keys : t.keys = s.keys
  refused : t.refused = s.refused

theorem Still.refl (s : Server) : Still s s := ⟨rfl, rfl⟩

theorem Still.trans {s t u : Server} (h : Still s t) (h' : Still t u) : Still s u :=
  ⟨h'.keys.trans h.keys, h'.refused.trans h.refused⟩

section Exec

variable {α : Type} {s : Server}

theorem exec_check {validity : Except RecordFault Unit} (valid : validity = .ok ()) :
    (check validity).exec s = (.ok (), s) := by
  rw [check, valid]
  rfl

theorem exec_serverCall {call : Call Redis.Refusal Server α} {a : α} {t : Server}
    (run : call.exec s = (.ok a, t)) : (serverCall call).exec s = (.ok a, t) := by
  rw [serverCall, Call.exec_onPart]
  simp only [id, run]
  rfl

theorem exec_find (faithful : s.refused = []) {reader : Json.Reader α} {write : α → Json}
    {key : String} {stored : Option α}
    (entry : s.keys.lookup key = stored.map fun a => .string (text (write a)))
    (readable : ∀ a, reader.run (Bytes.ofString (text (write a))) = .ok a) :
    (find reader key).exec s = (.ok stored, s.receive ["GET", key]) := by
  have found : s.keys.string? key = .ok (stored.map fun a => text (write a)) := by
    rw [Redis.Keyspace.string?, entry]
    cases stored <;> rfl
  rw [find, Call.exec_bind_ok (exec_serverCall (Server.exec_get faithful found))]
  cases stored with
  | none => rfl
  | some a =>
    simp only [Option.map_some, readable]
    rfl

theorem exec_findAll {find : String → Call StoreError Server (Option α)}
    {record? : String → Option α}
    (found : ∀ t, Still s t → ∀ id, ∃ u, (find id).exec t = (.ok (record? id), u) ∧ Still t u)
    (ids : List String) :
    ∃ t, (findAll find ids).exec s = (.ok (ids.filterMap record?), t) ∧ Still s t := by
  -- Each record is read from the keys that the ones before it were read from.
  induction ids generalizing s with
  | nil => exact ⟨s, rfl, .refl s⟩
  | cons id rest ih =>
    obtain ⟨t, first, still⟩ := found s (.refl s) id
    obtain ⟨u, others, still'⟩ := ih fun u after => found u (still.trans after)
    refine ⟨u, ?_, still.trans still'⟩
    rw [findAll, Call.exec_bind_ok first, Call.exec_bind_ok others]
    cases record : record? id <;> simp [record] <;> rfl

end Exec

namespace Holds

variable {s t : Server} {c : Contents} {id : String}

theorem of_still (holds : Holds s c) (still : Still s t) : Holds t c where
  faithful := still.refused.trans holds.faithful
  instance_ id := by rw [still.keys, holds.instance_]
  binding id := by rw [still.keys, holds.binding]
  instances := still.keys ▸ holds.instances
  bindings i := still.keys ▸ holds.bindings i
  instance_id := holds.instance_id
  binding_id := holds.binding_id

theorem empty (listing : Redis.Listing) : Holds { listing } .empty where
  faithful := rfl
  instance_ _ := rfl
  binding _ := rfl
  instances := ⟨[], rfl, .nil, by simp [Contents.empty]⟩
  bindings _ := ⟨[], rfl, .nil, by simp [Contents.empty]⟩
  instance_id _ _ found := nomatch found
  binding_id _ _ found := nomatch found

theorem findInstance (holds : Holds s c) (id : String) :
    ∃ t, (RedisStore.findInstance id).exec s = (.ok (c.instance? id), t) ∧ Still s t :=
  ⟨_, exec_find holds.faithful (holds.instance_ id) read_instance, rfl, rfl⟩

theorem findBinding (holds : Holds s c) (id : String) :
    ∃ t, (RedisStore.findBinding id).exec s = (.ok (c.binding? id), t) ∧ Still s t :=
  ⟨_, exec_find holds.faithful (holds.binding id) read_binding, rfl, rfl⟩

theorem list {α : Type} {find : String → Call StoreError Server (Option α)}
    {record? : String → Option α} {name : α → String} (holds : Holds s c)
    (found : ∀ t, Holds t c → ∀ id, ∃ u, (find id).exec t = (.ok (record? id), u) ∧ Still t u)
    (own : ∀ id a, record? id = some a → name a = id) {key : String} {p : String → Prop}
    (has : s.keys.Has key p) :
    ∃ l t, (serverCall (Server.smembers key) >>= findAll find).exec s = (.ok l, t) ∧ Still s t ∧
      Lists name (fun a => p (name a) ∧ record? (name a) = some a) l := by
  obtain ⟨ids, listed, once, mem⟩ := Server.exec_smembers holds.faithful has
  have still : Still s (s.receive ["SMEMBERS", key]) := ⟨rfl, rfl⟩
  obtain ⟨t, all, still'⟩ := exec_findAll
    (fun u after => found u (holds.of_still (still.trans after))) ids
  refine ⟨ids.filterMap record?, t, ?_, still.trans still', ?_⟩
  · rw [Call.exec_bind_ok (exec_serverCall listed), all]
  · exact (Lists.filterMap once own).congr fun a => and_congr_left fun _ => mem _

theorem listInstances (holds : Holds s c) :
    ∃ l t, RedisStore.instances.exec s = (.ok l, t) ∧ Still s t ∧
      Lists (·.id) (fun i => c.instance? i.id = some i) l := by
  obtain ⟨l, t, listed, still, lists⟩ := holds.list (fun _ after => after.findInstance)
    holds.instance_id holds.instances
  exact ⟨l, t, listed, still, lists.congr fun i => by simp +contextual⟩

theorem listBindings (holds : Holds s c) (owner : String) :
    ∃ l t, (RedisStore.bindings owner).exec s = (.ok l, t) ∧ Still s t ∧
      Lists (·.id) (fun b => c.filed owner b.id ∧ c.binding? b.id = some b) l :=
  holds.list (fun _ after => after.findBinding) holds.binding_id (holds.bindings owner)

theorem setInstance (holds : Holds s c) (faithful : t.refused = []) {i : Option Instance}
    (own : ∀ j, i = some j → j.id = id)
    (files : s.keys.Files t.keys (instanceKey id) (i.map fun i => .string (text i.json))
      instancesKey fun m => ((c.setInstance id i).instance? m).isSome) :
    Holds t (c.setInstance id i) where
  faithful := faithful
  instance_ other := by
    by_cases same : other = id
    · subst same
      simp [Contents.setInstance, files.record]
    · rw [files.others _ (by simpa [instanceKey_inj] using same) instanceKey_ne_instancesKey,
        holds.instance_]
      simp [Contents.setInstance, same]
  binding other := by
    rw [files.others _ bindingKey_ne_instanceKey bindingKey_ne_instancesKey]
    exact holds.binding other
  instances := files.listed
  bindings owner := (holds.bindings owner).congr
    (files.others _ instanceKey_ne_bindingsKey.symm bindingsKey_ne_instancesKey) fun _ => Iff.rfl
  instance_id other j found := by
    by_cases same : other = id
    · exact (own j (by simpa [Contents.setInstance, same] using found)).trans same.symm
    · exact holds.instance_id other j (by simpa [Contents.setInstance, same] using found)
  binding_id := holds.binding_id

theorem setBinding (holds : Holds s c) (faithful : t.refused = []) {b : Option Binding}
    {owner : String} (own : ∀ d, b = some d → d.id = id)
    (files : s.keys.Files t.keys (bindingKey id) (b.map fun b => .string (text b.json))
      (bindingsKey owner) ((c.setBinding id b owner).filed owner)) :
    Holds t (c.setBinding id b owner) where
  faithful := faithful
  instance_ other := by
    rw [files.others _ bindingKey_ne_instanceKey.symm instanceKey_ne_bindingsKey]
    exact holds.instance_ other
  binding other := by
    by_cases same : other = id
    · subst same
      simp [Contents.setBinding, files.record]
    · rw [files.others _ (by simpa [bindingKey_inj] using same) bindingKey_ne_bindingsKey,
        holds.binding]
      simp [Contents.setBinding, same]
  instances := holds.instances.congr
    (files.others _ bindingKey_ne_instancesKey.symm bindingsKey_ne_instancesKey.symm)
    fun _ => Iff.rfl
  bindings i := by
    by_cases same : i = owner
    · exact same ▸ files.listed
    · refine (holds.bindings i).congr (files.others _ bindingKey_ne_bindingsKey.symm
        (by simpa [bindingsKey_inj] using same)) fun _ => ?_
      simp [Contents.setBinding, same]
  instance_id := holds.instance_id
  binding_id other d found := by
    by_cases same : other = id
    · exact (own d (by simpa [Contents.setBinding, same] using found)).trans same.symm
    · exact holds.binding_id other d (by simpa [Contents.setBinding, same] using found)

theorem saveInstance (holds : Holds s c) {i : Instance} (valid : i.validate = .ok ()) :
    ∃ t, (RedisStore.saveInstance i).exec s = (.ok (), t) ∧
      Holds t (c.setInstance i.id (some i)) := by
  obtain ⟨t, done, faithful, files⟩ := Server.exec_write (text i.json) i.id
    holds.faithful instanceKey_ne_instancesKey.symm holds.instances
  refine ⟨t, ?_, holds.setInstance faithful (fun j same => ?_) ⟨files.record, ?_, files.others⟩⟩
  · rw [RedisStore.saveInstance, Call.exec_bind_ok (exec_check valid)]
    exact exec_serverCall done
  · rw [Option.some.inj same]
  · refine files.listed.congr rfl fun m => ?_
    by_cases same : m = i.id <;> simp [Contents.setInstance, same]

theorem deleteInstance (holds : Holds s c) (id : String) :
    ∃ t, (RedisStore.deleteInstance id).exec s = (.ok (), t) ∧ Holds t (c.setInstance id none) := by
  have apart : instancesKey ≠ instanceKey id := instanceKey_ne_instancesKey.symm
  obtain ⟨t, done, faithful, files⟩ := Server.exec_erase id holds.faithful apart holds.instances
  refine ⟨t, exec_serverCall done, holds.setInstance faithful (by simp) ⟨files.record, ?_, files.others⟩⟩
  refine files.listed.congr rfl fun m => ?_
  by_cases same : m = id <;> simp [Contents.setInstance, same]

theorem saveBinding (holds : Holds s c) {b : Binding} (valid : b.validate = .ok ()) :
    ∃ t, (RedisStore.saveBinding b).exec s = (.ok (), t) ∧
      Holds t (c.setBinding b.id (some b) b.instanceId) := by
  obtain ⟨t, done, faithful, files⟩ := Server.exec_write (text b.json) b.id
    holds.faithful bindingKey_ne_bindingsKey.symm (holds.bindings b.instanceId)
  refine ⟨t, ?_, holds.setBinding faithful (fun d same => ?_) ⟨files.record, ?_, files.others⟩⟩
  · rw [RedisStore.saveBinding, Call.exec_bind_ok (exec_check valid)]
    exact exec_serverCall done
  · rw [Option.some.inj same]
  · refine files.listed.congr rfl fun m => ?_
    by_cases same : m = b.id <;> simp [Contents.setBinding, same]

theorem deleteBinding (holds : Holds s c) (id : String) :
    ∃ t, (RedisStore.deleteBinding id).exec s = (.ok (), t) ∧ Holds t (c.dropBinding id) := by
  obtain ⟨s', found, still⟩ := holds.findBinding id
  have holds' := holds.of_still still
  rw [RedisStore.deleteBinding, Call.exec_bind_ok found, Contents.dropBinding]
  cases c.binding? id with
  | none => exact ⟨s', rfl, holds'⟩
  | some b =>
    have apart : bindingsKey b.instanceId ≠ bindingKey id := bindingKey_ne_bindingsKey.symm
    obtain ⟨t, done, faithful, files⟩ :=
      Server.exec_erase id holds'.faithful apart (holds'.bindings b.instanceId)
    refine ⟨t, exec_serverCall done,
      holds'.setBinding faithful (by simp) ⟨files.record, ?_, files.others⟩⟩
    refine files.listed.congr rfl fun m => ?_
    by_cases same : m = id <;> simp [Contents.setBinding, same]

end Holds

end RedisStore

end LedgerBroker
