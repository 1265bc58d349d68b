import LedgerBroker.Proofs.RedisRecords
import LedgerBroker.Proofs.Run
import Mathlib.Data.List.Induction

set_option autoImplicit false

namespace LedgerBroker

namespace Store

inductive Change
  | saveInstance (i : Instance)
  | deleteInstance (id : String)
  | saveBinding (b : Binding)
  | deleteBinding (id : String)

namespace Change

def call {σ : Type} (store : Store σ) : Change → Call StoreError σ Unit
  | saveInstance i => store.saveInstance i
  | deleteInstance id => store.deleteInstance id
  | saveBinding b => store.saveBinding b
  | deleteBinding id => store.deleteBinding id

def instance? (id : String) (last : Option Instance) : Change → Option Instance
  | saveInstance i => if i.id = id ∧ i.validate.isOk then some i else last
  | deleteInstance other => if other = id then none else last
  | saveBinding _ | deleteBinding _ => last

def binding? (id : String) (last : Option Binding) : Change → Option Binding
  | saveBinding b => if b.id = id ∧ b.validate.isOk then some b else last
  | deleteBinding other => if other = id then none else last
  | saveInstance _ | deleteInstance _ => last

end Change

def lastInstance (changes : List Change) (id : String) : Option Instance :=
  changes.foldl (Change.instance? id) none

def lastBinding (changes : List Change) (id : String) : Option Binding :=
  changes.foldl (Change.binding? id) none

/-- No binding is saved under one instance while it is stored under another. -/
def KeepsOwners (changes : List Change) : Prop :=
  ∀ done b, done ++ [.saveBinding b] <+: changes → b.validate.isOk →
    ∀ stored, lastBinding done b.id = some stored → stored.instanceId = b.instanceId

end Store

namespace RedisStore

open Redis (Server)
open Store (Change lastInstance lastBinding KeepsOwners)

def after (listing : Redis.Listing) (changes : List Change) : Server :=
  changes.foldl (fun s change => ((change.call store).exec s).2) { listing }

def ListsInstances (s : Server) (changes : List Change) : Prop :=
  ∃ l, (store.instances.exec s).1 = .ok l ∧
    Lists (·.id) (fun i => lastInstance changes i.id = some i) l

def ListsBindings (s : Server) (changes : List Change) (owner : String) : Prop :=
  ∃ l, ((store.bindings owner).exec s).1 = .ok l ∧
    Lists (·.id) (fun b => lastBinding changes b.id = some b ∧ b.instanceId = owner) l

namespace Contents

def change (c : Contents) : Change → Contents
  | .saveInstance i => if i.validate.isOk then c.setInstance i.id (some i) else c
  | .deleteInstance id => c.setInstance id none
  | .saveBinding b => if b.validate.isOk then c.setBinding b.id (some b) b.instanceId else c
  | .deleteBinding id => c.dropBinding id

def of (changes : List Change) : Contents := changes.foldl change empty

/-- The sets have the ids of just the bindings that are stored under their instances. -/
def Sorted (c : Contents) : Prop :=
  ∀ owner id, c.filed owner id ↔ ∃ b, c.binding? id = some b ∧ b.instanceId = owner

theorem of_snoc (changes : List Change) (last : Change) :
    of (changes ++ [last]) = (of changes).change last := by
  simp [of]

theorem instance?_change (c : Contents) (change : Change) (id : String) :
    (c.change change).instance? id = change.instance? id (c.instance? id) := by
  cases change with
  | saveInstance i =>
    by_cases valid : i.validate.isOk <;>
      simp [Contents.change, Change.instance?, setInstance, valid, eq_comm]
  | deleteInstance other => simp [Contents.change, Change.instance?, setInstance, eq_comm]
  | saveBinding b =>
    simp only [Contents.change, Change.instance?]
    split <;> rfl
  | deleteBinding other =>
    simp only [Contents.change, dropBinding, Change.instance?]
    split <;> rfl

theorem binding?_change (c : Contents) (change : Change) (id : String) :
    (c.change change).binding? id = change.binding? id (c.binding? id) := by
  cases change with
  | saveInstance i =>
    simp only [Contents.change, Change.binding?]
    split <;> rfl
  | deleteInstance other => rfl
  | saveBinding b =>
    by_cases valid : b.validate.isOk <;>
      simp [Contents.change, Change.binding?, setBinding, valid, eq_comm]
  | deleteBinding other =>
    by_cases same : other = id
    · subst same
      cases stored : c.binding? other <;>
        simp [Contents.change, dropBinding, Change.binding?, setBinding, stored]
    · cases stored : c.binding? other <;>
        simp [Contents.change, dropBinding, Change.binding?, setBinding, stored, same, Ne.symm same]

theorem instance?_of (changes : List Change) (id : String) :
    (of changes).instance? id = lastInstance changes id := by
  induction changes using List.reverseRecOn with
  | nil => rfl
  | append_singleton changes last ih =>
    rw [of_snoc, instance?_change, ih]
    simp [lastInstance]

theorem binding?_of (changes : List Change) (id : String) :
    (of changes).binding? id = lastBinding changes id := by
  induction changes using List.reverseRecOn with
  | nil => rfl
  | append_singleton changes last ih =>
    rw [of_snoc, binding?_change, ih]
    simp [lastBinding]

theorem Sorted.change {c : Contents} (sorted : c.Sorted) (change : Change)
    (keeps : ∀ b, change = .saveBinding b → b.validate.isOk →
      ∀ stored, c.binding? b.id = some stored → stored.instanceId = b.instanceId) :
    (c.change change).Sorted := by
  cases change with
  | saveInstance i =>
    simp only [Contents.change]
    split <;> exact sorted
  | deleteInstance id => exact sorted
  | saveBinding b =>
    by_cases valid : b.validate.isOk
    · intro owner id
      by_cases same : id = b.id
      · subst same
        by_cases own : owner = b.instanceId
        · simp [Contents.change, setBinding, valid, own]
        · -- Another instance would have the id only if the binding had been stored under it.
          have free : ¬c.filed owner b.id := by
            rw [sorted]
            rintro ⟨stored, found, under⟩
            exact own (under.symm.trans (keeps b rfl valid stored found))
          simp [Contents.change, setBinding, valid, own, free, Ne.symm own]
      · simp [Contents.change, setBinding, valid, same, sorted owner id]
    · simpa [Contents.change, valid] using sorted
  | deleteBinding id =>
    intro owner other
    simp only [Contents.change, dropBinding]
    cases stored : c.binding? id with
    | none => exact sorted owner other
    | some b =>
      by_cases same : other = id
      · subst same
        by_cases own : owner = b.instanceId
        · simp [setBinding, own]
        · simp [setBinding, own, sorted owner other, stored, Ne.symm own]
      · simp [setBinding, same, sorted owner other]

theorem sorted_of {changes : List Change} (keeps : KeepsOwners changes) : (of changes).Sorted := by
  -- The changes are counted from the last one, which comes upon the records left by the others.
  induction changes using List.reverseRecOn with
  | nil => simp [Sorted, of, empty]
  | append_singleton changes last ih =>
    rw [of_snoc]
    refine (ih fun done b inside => keeps done b (inside.trans (List.prefix_append _ _))).change
      last fun b same valid stored found => ?_
    subst same
    rw [binding?_of] at found
    exact keeps changes b List.prefix_rfl valid stored found

end Contents

theorem isOk_iff {ε : Type} {result : Except ε Unit} : result.isOk = true ↔ result = .ok () := by
  cases result <;> simp [Except.isOk, Except.toBool]

theorem Holds.change {s : Server} {c : Contents} (holds : Holds s c) (change : Change) :
    Holds ((change.call store).exec s).2 (c.change change) := by
  -- A record that is not valid is refused before anything is sent.
  have invalid {validity : Except RecordFault Unit} {rest : Unit → Call StoreError Server Unit}
      (h : ¬validity.isOk) : ((check validity >>= rest).exec s).2 = s := by
    cases validity with
    | error fault => rfl
    | ok _ => exact absurd rfl h
  cases change with
  | saveInstance i =>
    by_cases valid : i.validate.isOk
    · obtain ⟨t, done, holds'⟩ := holds.saveInstance (isOk_iff.mp valid)
      simpa [Change.call, store, done, Contents.change, valid] using holds'
    · have same : ((RedisStore.saveInstance i).exec s).2 = s := invalid valid
      simpa [Change.call, store, same, Contents.change, valid] using holds
  | deleteInstance id =>
    obtain ⟨t, done, holds'⟩ := holds.deleteInstance id
    simpa [Change.call, store, done, Contents.change] using holds'
  | saveBinding b =>
    by_cases valid : b.validate.isOk
    · obtain ⟨t, done, holds'⟩ := holds.saveBinding (isOk_iff.mp valid)
      simpa [Change.call, store, done, Contents.change, valid] using holds'
    · have same : ((RedisStore.saveBinding b).exec s).2 = s := invalid valid
      simpa [Change.call, store, same, Contents.change, valid] using holds
  | deleteBinding id =>
    obtain ⟨t, done, holds'⟩ := holds.deleteBinding id
    simpa [Change.call, store, done, Contents.change] using holds'

section History

variable (listing : Redis.Listing) {changes : List Change}

theorem holds_after (changes : List Change) : Holds (after listing changes) (.of changes) := by
  induction changes using List.reverseRecOn with
  | nil => exact .empty listing
  | append_singleton changes last ih =>
    have step := ih.change last
    rw [Contents.of_snoc]
    simpa [after] using step

theorem lists_instances (changes : List Change) :
    ListsInstances (after listing changes) changes := by
  obtain ⟨l, t, listed, -, lists⟩ := (holds_after listing changes).listInstances
  refine ⟨l, by rw [store, listed], lists.congr fun i => ?_⟩
  rw [Contents.instance?_of]

theorem lists_filed (changes : List Change) (owner : String) :
    ∃ l, ((store.bindings owner).exec (after listing changes)).1 = .ok l ∧ Lists (·.id)
      (fun b => (Contents.of changes).filed owner b.id ∧ lastBinding changes b.id = some b) l := by
  obtain ⟨l, t, listed, -, lists⟩ := (holds_after listing changes).listBindings owner
  refine ⟨l, by rw [store, listed], lists.congr fun b => ?_⟩
  rw [Contents.binding?_of]

theorem lists_bindings (keeps : KeepsOwners changes) (owner : String) :
    ListsBindings (after listing changes) changes owner := by
  obtain ⟨l, listed, lists⟩ := lists_filed listing changes owner
  refine ⟨l, listed, lists.congr fun b => ?_⟩
  rw [Contents.sorted_of keeps, Contents.binding?_of]
  constructor
  · rintro ⟨⟨stored, found, own⟩, last⟩
    obtain rfl := Option.some.inj (last.symm.trans found)
    exact ⟨last, own⟩
  · exact fun ⟨last, own⟩ => ⟨⟨b, last, own⟩, last⟩

theorem filed_of_lists {b : Binding} {owner : String} (last : lastBinding changes b.id = some b)
    (exact_ : ListsBindings (after listing changes) changes owner) :
    (Contents.of changes).filed owner b.id ↔ b.instanceId = owner := by
  obtain ⟨l, listed, lists⟩ := exact_
  obtain ⟨l', listed', lists'⟩ := lists_filed listing changes owner
  obtain rfl := Except.ok.inj (listed.symm.trans listed')
  have iff := (lists'.mem b).symm.trans (lists.mem b)
  simpa [last] using iff

/-- After every part of a history the lists are right if and only if no stored binding is saved
under another instance. -/
theorem lists_exact_iff (changes : List Change) :
    (∀ done, done <+: changes → ListsInstances (after listing done) done) ∧
    ((∀ done, done <+: changes → ∀ owner, ListsBindings (after listing done) done owner) ↔
      KeepsOwners changes) := by
  refine ⟨fun done _ => lists_instances listing done, fun exact_ => ?_, fun keeps => ?_⟩
  · intro done b inside valid stored found
    have own : stored.id = b.id := (holds_after listing done).binding_id b.id stored
      ((Contents.binding?_of done b.id).trans found)
    have before := exact_ done ((List.prefix_append _ _).trans inside) stored.instanceId
    have filed := (filed_of_lists listing (own ▸ found) before).mpr rfl
    by_contra moved
    have last : lastBinding (done ++ [.saveBinding b]) b.id = some b := by
      simp [lastBinding, Change.binding?, valid]
    -- The id stays where it was, so that the list of the first instance is wrong from here on.
    have stays : (Contents.of (done ++ [.saveBinding b])).filed stored.instanceId b.id := by
      rw [Contents.of_snoc]
      simpa [Contents.change, Contents.setBinding, valid, moved, own] using filed
    exact moved ((filed_of_lists listing last (exact_ _ inside _)).mp stays).symm
  · intro done inside owner
    exact lists_bindings listing (fun done' b inside' => keeps done' b (inside'.trans inside)) owner

end History

def boundAgain : Binding := ⟨"b1", "b", Broker.firstDay⟩

def rebinding : List Change :=
  [.saveBinding { boundAgain with instanceId := "a" }, .saveBinding boundAgain]

theorem rebinding_lists_other :
    ((store.bindings "a").exec (after .sorted rebinding)).1 = .ok [boundAgain] ∧
      boundAgain.instanceId = "b" ∧ ¬ListsBindings (after .sorted rebinding) rebinding "a" := by
  have last : lastBinding rebinding boundAgain.id = some boundAgain := by rfl
  have filed : (Contents.of rebinding).filed "a" boundAgain.id := by rfl
  obtain ⟨l, listed, lists⟩ := lists_filed .sorted rebinding "a"
  have just : Lists (·.id) (fun b => (Contents.of rebinding).filed "a" b.id ∧
      lastBinding rebinding b.id = some b) [boundAgain] := by
    refine ⟨fun b => ⟨fun mem => ?_, fun ⟨_, found⟩ => ?_⟩, by simp⟩
    · obtain rfl := List.mem_singleton.mp mem
      exact ⟨filed, last⟩
    · by_cases same : b.id = "b1"
      · rw [same] at found
        exact List.mem_singleton.mpr (Option.some.inj (found.symm.trans last))
      · simp [lastBinding, rebinding, Change.binding?, boundAgain, Ne.symm same] at found
  refine ⟨?_, rfl, fun right => ?_⟩
  · rw [listed, List.perm_singleton.mp (lists.perm just)]
  · exact absurd ((filed_of_lists .sorted last right).mp filed) (by decide)

end RedisStore

end LedgerBroker
