import LedgerBroker.Proofs.RedisRecords
import LedgerBroker.Proofs.ValidRecords
import LedgerBroker.Store.Memory
import LedgerBroker.Store.Outage

set_option autoImplicit false

namespace LedgerBroker

theorem MemoryStore.faithful :
    store.Faithful fun m S => ∀ i ∈ m.instances, i ∈ S where
  saveInstance {m S} i known valid := by
    refine ⟨by simp [store, save, valid], ?_⟩
    simp only [store, save, valid, Call.exec_of]
    intro j mem
    rcases mem_putInstance.mp mem with ⟨old, _⟩ | rfl
    · exact Set.mem_insert_of_mem i (known j old)
    · exact Set.mem_insert j S
  findInstance id known := by
    refine ⟨known, fun i found => ?_⟩
    obtain ⟨mem, own⟩ := mem_of_find (Except.ok.inj found)
    exact ⟨known i mem, own⟩
  instances known := ⟨known, fun l listed i mem => known i (Except.ok.inj listed ▸ mem)⟩
  deleteInstance id known i mem := known i (mem_removeInstance.mp mem).1
  saveBinding b known valid := by
    refine ⟨by simp [store, save, valid], ?_⟩
    simp only [store, save, valid, Call.exec_of]
    exact known
  findBinding _ known := known
  deleteBinding _ known := known
  bindings _ known := known

namespace RedisStore

open Redis (Server)

theorem faithful :
    store.Faithful fun s S => ∃ c, Holds s c ∧ ∀ id i, c.instance? id = some i → i ∈ S where
  saveInstance i := by
    rintro ⟨c, holds, known⟩ valid
    obtain ⟨t, saved, holds⟩ := holds.saveInstance valid
    rw [store, saved]
    refine ⟨rfl, _, holds, fun id j found => ?_⟩
    by_cases same : id = i.id
    · have own : some i = some j := by simpa [Contents.setInstance, same] using found
      exact Option.some.inj own ▸ Set.mem_insert i _
    · exact Set.mem_insert_of_mem i (known id j (by simpa [Contents.setInstance, same] using found))
  findInstance id := by
    rintro ⟨c, holds, known⟩
    obtain ⟨t, asked, still⟩ := holds.findInstance id
    rw [store, asked]
    refine ⟨⟨c, holds.of_still still, known⟩, fun i found => ?_⟩
    have found := Except.ok.inj found
    exact ⟨known id i found, holds.instance_id id i found⟩
  instances := by
    rintro s S ⟨c, holds, known⟩
    obtain ⟨l, t, asked, still, lists⟩ := holds.listInstances
    rw [store, asked]
    refine ⟨⟨c, holds.of_still still, known⟩, fun l' listed i mem => ?_⟩
    obtain rfl := Except.ok.inj listed
    exact known _ i ((lists.mem i).mp mem)
  deleteInstance id := by
    rintro ⟨c, holds, known⟩
    obtain ⟨t, deleted, holds⟩ := holds.deleteInstance id
    rw [store, deleted]
    refine ⟨_, holds, fun other i found => ?_⟩
    by_cases same : other = id
    · simp [Contents.setInstance, same] at found
    · exact known other i (by simpa [Contents.setInstance, same] using found)
  saveBinding b := by
    rintro ⟨c, holds, known⟩ valid
    obtain ⟨t, saved, holds⟩ := holds.saveBinding valid
    rw [store, saved]
    exact ⟨rfl, _, holds, known⟩
  findBinding id := by
    rintro ⟨c, holds, known⟩
    obtain ⟨t, asked, still⟩ := holds.findBinding id
    rw [store, asked]
    exact ⟨c, holds.of_still still, known⟩
  deleteBinding id := by
    rintro ⟨c, holds, known⟩
    obtain ⟨t, deleted, holds⟩ := holds.deleteBinding id
    rw [store, deleted]
    refine ⟨_, holds, ?_⟩
    unfold Contents.dropBinding
    split
    · exact known
    · exact known
  bindings id := by
    rintro ⟨c, holds, known⟩
    obtain ⟨l, t, asked, still, _⟩ := holds.listBindings id
    rw [store, asked]
    exact ⟨c, holds.of_still still, known⟩

end RedisStore

namespace Store

variable {ρ α : Type} {store : Store ρ} {holds : ρ → Set Instance → Prop} {S : Set Instance}
  {u : Outages ρ}

def CallKind.saves : CallKind → Bool
  | .saveInstance | .saveBinding => true
  | _ => false

def Saving (u : Outages ρ) : Prop := ∀ o ∈ u.outages, o.kind.saves = false

section Guard

variable {kind : CallKind} {failed : Failure → Except StoreError α} {call : Call StoreError ρ α}

theorem Saving.guard_cases (saving : Saving u) :
    (kind.saves = false ∧ ∃ fault, (Unreliable.guard kind failed call).exec u = (failed fault, u)) ∨
      ∃ u', (Unreliable.guard kind failed call).exec u = ((call.exec u.service).1, u') ∧
        Saving u' ∧ u'.service = (call.exec u.service).2 := by
  rcases Unreliable.exec_guard_cases kind failed call u with
    ⟨o, mem, same, run⟩ | ⟨left, run, old⟩
  · exact .inl ⟨same ▸ saving o mem, o.fault, run⟩
  · refine .inr ⟨_, run, fun o mem => ?_, rfl⟩
    obtain ⟨o', mem', same, _⟩ := old o mem
    exact same ▸ saving o' mem'

theorem Saving.guard (saving : Saving u) (kept : holds u.service S)
    (keeps : holds (call.exec u.service).2 S) :
    (Saving ((Unreliable.guard kind failed call).exec u).2 ∧
      holds ((Unreliable.guard kind failed call).exec u).2.service S) ∧
    ((∃ fault, ((Unreliable.guard kind failed call).exec u).1 = failed fault) ∨
      ((Unreliable.guard kind failed call).exec u).1 = (call.exec u.service).1) := by
  rcases saving.guard_cases with ⟨_, fault, run⟩ | ⟨u', run, saving', same⟩ <;> rw [run]
  · exact ⟨⟨saving, kept⟩, .inl ⟨fault, rfl⟩⟩
  · exact ⟨⟨saving', same ▸ keeps⟩, .inr rfl⟩

theorem Saving.guard_save (saving : Saving u) (kind : CallKind) (saves : kind.saves = true)
    (keeps : holds (call.exec u.service).2 S) :
    ((Unreliable.guard kind failed call).exec u).1 = (call.exec u.service).1 ∧
      Saving ((Unreliable.guard kind failed call).exec u).2 ∧
        holds ((Unreliable.guard kind failed call).exec u).2.service S := by
  rcases saving.guard_cases with ⟨spared, _⟩ | ⟨u', run, saving', same⟩
  · exact Bool.noConfusion (saves.symm.trans spared)
  · rw [run]
    exact ⟨rfl, saving', same ▸ keeps⟩

end Guard

theorem Faithful.unreliable (faithful : store.Faithful holds) :
    store.unreliable.Faithful fun u S => Saving u ∧ holds u.service S where
  saveInstance i := by
    rintro ⟨saving, kept⟩ valid
    obtain ⟨saved, keeps⟩ := faithful.saveInstance i kept valid
    obtain ⟨same, after⟩ := saving.guard_save .saveInstance rfl keeps
    exact ⟨same.trans saved, after⟩
  findInstance id := by
    rintro ⟨saving, kept⟩
    obtain ⟨keeps, known⟩ := faithful.findInstance id kept
    obtain ⟨after, failed | same⟩ := saving.guard kept keeps
    · -- A search that breaks either fails or finds nothing.
      refine ⟨after, fun i found => ?_⟩
      obtain ⟨fault, failed⟩ := failed
      cases fault <;> exact nomatch failed.symm.trans found
    · exact ⟨after, fun i found => known i (same.symm.trans found)⟩
  instances := by
    rintro u S ⟨saving, kept⟩
    obtain ⟨keeps, known⟩ := faithful.instances kept
    obtain ⟨after, failed | same⟩ := saving.guard kept keeps
    · refine ⟨after, fun l found => ?_⟩
      obtain ⟨fault, failed⟩ := failed
      exact nomatch failed.symm.trans found
    · exact ⟨after, fun l found => known l (same.symm.trans found)⟩
  deleteInstance id := by
    rintro ⟨saving, kept⟩
    exact (saving.guard kept (faithful.deleteInstance id kept)).1
  saveBinding b := by
    rintro ⟨saving, kept⟩ valid
    obtain ⟨saved, keeps⟩ := faithful.saveBinding b kept valid
    obtain ⟨same, after⟩ := saving.guard_save .saveBinding rfl keeps
    exact ⟨same.trans saved, after⟩
  findBinding id := by
    rintro ⟨saving, kept⟩
    exact (saving.guard kept (faithful.findBinding id kept)).1
  deleteBinding id := by
    rintro ⟨saving, kept⟩
    exact (saving.guard kept (faithful.deleteBinding id kept)).1
  bindings id := by
    rintro ⟨saving, kept⟩
    exact (saving.guard kept (faithful.bindings id kept)).1

end Store

end LedgerBroker
