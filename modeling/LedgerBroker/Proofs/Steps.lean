import LedgerBroker.Broker.Basic
import LedgerBroker.Proofs.Call
import LedgerBroker.Store.Memory
import LedgerBroker.Store.Outage

set_option autoImplicit false

namespace LedgerBroker

namespace Store

/-- Calls of some kinds may break; no search comes back with nothing where there is something. -/
def Breaks {σ : Type} (may : CallKind → Prop) (records : Outages σ) : Prop :=
  ∀ o ∈ records.outages, may o.kind ∧ o.fault = .broken

def Imitates {α : Type} (may : CallKind → Prop) (kind : CallKind)
    (call : Call StoreError (Outages MemoryStore) α) (inner : Call StoreError MemoryStore α) :
    Prop :=
  ∀ u, Breaks may u → Breaks may (call.exec u).2 ∧
    ((may kind ∧ (∃ e, (call.exec u).1 = .error e) ∧ (call.exec u).2.service = u.service) ∨
      ((call.exec u).1 = (inner.exec u.service).1 ∧
        (call.exec u).2.service = (inner.exec u.service).2))

theorem imitates_guard {α : Type} {may : CallKind → Prop} (kind : CallKind)
    (failed : Failure → Except StoreError α) (inner : Call StoreError MemoryStore α)
    (error : ∃ e, failed .broken = .error e) :
    Imitates may kind (Unreliable.guard kind failed inner) inner := by
  intro u breaks
  rcases Unreliable.exec_guard_cases kind failed inner u with
    ⟨o, mem, same, run⟩ | ⟨left, run, old⟩
  · have broken := (breaks o mem).2
    rw [run, broken]
    exact ⟨breaks, .inl ⟨same ▸ (breaks o mem).1, error, rfl⟩⟩
  · rw [run]
    refine ⟨fun o mem => ?_, .inr ⟨rfl, rfl⟩⟩
    -- What is left of the outages was announced, with more calls to go.
    obtain ⟨o', mem', sameKind, sameFault⟩ := old o mem
    have h := breaks o' mem'
    exact ⟨sameKind ▸ h.1, sameFault ▸ h.2⟩

theorem imitates_instancesOn (may : CallKind → Prop) (deployment : String) :
    Imitates may .instances (MemoryStore.store.unreliable.instancesOn deployment)
      (MemoryStore.store.instancesOn deployment) := by
  intro u breaks
  have imitates : Imitates may .instances MemoryStore.store.unreliable.instances
      MemoryStore.store.instances := imitates_guard _ _ _ ⟨_, rfl⟩
  obtain ⟨kept, h⟩ := imitates u breaks
  simp only [instancesOn, Call.exec_bind]
  -- The search is made of one call on the store and breaks exactly if that call does.
  cases run : (MemoryStore.store.unreliable.instances.exec u).1 with
  | error e =>
    refine ⟨kept, .inl ?_⟩
    rcases h with ⟨allowed, -, same⟩ | ⟨done, -⟩
    · exact ⟨allowed, ⟨e, rfl⟩, same⟩
    · exact nomatch run.symm.trans done
  | ok found =>
    refine ⟨kept, .inr ?_⟩
    rcases h with ⟨-, ⟨e, broken⟩, -⟩ | ⟨done, same⟩
    · exact nomatch run.symm.trans broken
    · have listed : found = u.service.instances := Except.ok.inj (run.symm.trans done)
      exact ⟨by rw [listed]; rfl, same⟩

end Store

namespace Broker

variable {δ : Type}

abbrev inMemory (d : Director δ) (details : DirectorDetails) :
    Services δ (Store.Outages MemoryStore) := ⟨d, MemoryStore.store.unreliable, details⟩

def settled (b : Broker δ (Store.Outages MemoryStore)) : Broker δ MemoryStore :=
  ⟨b.pool, b.director, b.records.service⟩

@[simp] theorem settled_pool (b : Broker δ (Store.Outages MemoryStore)) :
    b.settled.pool = b.pool := rfl

@[simp] theorem settled_director (b : Broker δ (Store.Outages MemoryStore)) :
    b.settled.director = b.director := rfl

@[simp] theorem settled_records (b : Broker δ (Store.Outages MemoryStore)) :
    b.settled.records = b.records.service := rfl

namespace Step

section Exec

variable {ρ α : Type}

@[simp] theorem exec_onDirector (call : Call BrokerError δ α) (b : Broker δ ρ) :
    (onDirector call).exec b =
      ((call.exec b.director).1, { b with director := (call.exec b.director).2 }) := by
  rw [onDirector, Call.exec_onPart, Call.mapError_id]

@[simp] theorem exec_onStore (rename : String → BrokerError) (call : Call StoreError ρ α)
    (b : Broker δ ρ) :
    (onStore rename call).exec b =
      ((call.exec b.records).1.mapError (rename ·.chain),
        { b with records := (call.exec b.records).2 }) := rfl

theorem exec_acquireNetwork_ok {b : Broker δ ρ} {choice : Nat} {network : String}
    {pool : NetworkPool} (h : b.pool.acquire choice = .ok (network, pool)) :
    (acquireNetwork choice).exec b = (.ok network, { b with pool := pool }) := by
  simp [acquireNetwork, h]

theorem exec_acquireNetwork_error {b : Broker δ ρ} {choice : Nat} {e : BrokerError}
    (h : b.pool.acquire choice = .error e) : (acquireNetwork choice).exec b = (.error e, b) := by
  simp [acquireNetwork, h]

end Exec

variable {α β : Type} {may : Store.CallKind → Prop} {w : Broker δ MemoryStore}

/-- Begun in state `w` the step ends as `post` says, whichever calls on the store break. -/
def Yields (may : Store.CallKind → Prop) (x : Step δ (Store.Outages MemoryStore) α)
    (w : Broker δ MemoryStore) (post : Except BrokerError α → Broker δ MemoryStore → Prop) :
    Prop :=
  ∀ b, b.settled = w → Store.Breaks may b.records →
    Store.Breaks may (x.exec b).2.records ∧ post (x.exec b).1 (x.exec b).2.settled

abbrev Before (may : Store.CallKind → Prop) (f : α → Step δ (Store.Outages MemoryStore) β)
    (post : Except BrokerError β → Broker δ MemoryStore → Prop) :
    Except BrokerError α → Broker δ MemoryStore → Prop
  | .ok a, w => Yields may (f a) w post
  | .error e, w => post (.error e) w

abbrev Handled (may : Store.CallKind → Prop)
    (handle : BrokerError → Step δ (Store.Outages MemoryStore) α)
    (post : Except BrokerError α → Broker δ MemoryStore → Prop) :
    Except BrokerError α → Broker δ MemoryStore → Prop
  | .ok a, w => post (.ok a) w
  | .error e, w => Yields may (handle e) w post

namespace Yields

variable {post post' : Except BrokerError α → Broker δ MemoryStore → Prop}

theorem mono {x : Step δ (Store.Outages MemoryStore) α} (h : Yields may x w post)
    (imp : ∀ r w', post r w' → post' r w') : Yields may x w post' := by
  intro b at_ breaks
  exact ⟨(h b at_ breaks).1, imp _ _ (h b at_ breaks).2⟩

theorem and {x : Step δ (Store.Outages MemoryStore) α} (h : Yields may x w post)
    (h' : Yields may x w post') : Yields may x w (fun r w' => post r w' ∧ post' r w') := by
  intro b at_ breaks
  exact ⟨(h b at_ breaks).1, (h b at_ breaks).2, (h' b at_ breaks).2⟩

theorem pure {a : α} (h : post (.ok a) w) : Yields may (Pure.pure a) w post := by
  rintro b rfl breaks
  exact ⟨breaks, h⟩

theorem throw {e : BrokerError} (h : post (.error e) w) :
    Yields may (MonadExcept.throw e) w post := by
  rintro b rfl breaks
  exact ⟨breaks, h⟩

theorem bind {x : Step δ (Store.Outages MemoryStore) α}
    {f : α → Step δ (Store.Outages MemoryStore) β}
    {post : Except BrokerError β → Broker δ MemoryStore → Prop}
    (h : Yields may x w (Before may f post)) : Yields may (x >>= f) w post := by
  intro b at_ breaks
  obtain ⟨kept, after⟩ := h b at_ breaks
  rw [Call.exec_bind]
  cases result : (x.exec b).1 with
  | error e => rw [result] at after; exact ⟨kept, after⟩
  | ok a => rw [result] at after; exact after _ rfl kept

theorem tryCatch {x : Step δ (Store.Outages MemoryStore) α}
    {handle : BrokerError → Step δ (Store.Outages MemoryStore) α}
    (h : Yields may x w (Handled may handle post)) :
    Yields may (MonadExcept.tryCatch x handle) w post := by
  intro b at_ breaks
  obtain ⟨kept, after⟩ := h b at_ breaks
  have run := Call.exec_tryCatch x handle b
  cases result : (x.exec b).1 with
  | ok a =>
    rw [result] at after run
    exact ⟨run ▸ kept, run ▸ after⟩
  | error e =>
    rw [result] at after run
    rw [run]
    exact after _ rfl kept

theorem ite {c : Prop} [Decidable c] {x y : Step δ (Store.Outages MemoryStore) α}
    (pos : c → Yields may x w post) (neg : ¬c → Yields may y w post) :
    Yields may (if c then x else y) w post := by
  by_cases h : c
  · rw [if_pos h]; exact pos h
  · rw [if_neg h]; exact neg h

theorem get {f : Broker δ (Store.Outages MemoryStore) → Step δ (Store.Outages MemoryStore) β}
    {post : Except BrokerError β → Broker δ MemoryStore → Prop}
    (h : ∀ b, b.settled = w → Yields may (f b) w post) :
    Yields may (MonadState.get >>= f) w post := by
  intro b at_ breaks
  exact h b at_ b at_ breaks

theorem onPool {f : NetworkPool → NetworkPool}
    {post : Except BrokerError Unit → Broker δ MemoryStore → Prop}
    (h : post (.ok ()) { w with pool := f w.pool }) : Yields may (Step.onPool f) w post := by
  rintro b rfl breaks
  exact ⟨breaks, h⟩

theorem acquireNetwork {choice : Nat}
    {post : Except BrokerError String → Broker δ MemoryStore → Prop}
    (none : ∀ e, w.pool.acquire choice = .error e → post (.error e) w)
    (some : ∀ network pool, w.pool.acquire choice = .ok (network, pool) →
      post (.ok network) { w with pool := pool }) :
    Yields may (Step.acquireNetwork choice) w post := by
  rintro b rfl breaks
  cases acquired : b.pool.acquire choice with
  | error e =>
    rw [exec_acquireNetwork_error acquired]
    exact ⟨breaks, none e acquired⟩
  | ok taken =>
    rw [exec_acquireNetwork_ok acquired]
    exact ⟨breaks, some taken.1 taken.2 acquired⟩

theorem onDirector {call : Call BrokerError δ α}
    (failed : ∀ e, (call.exec w.director).1 = .error e →
      post (.error e) { w with director := (call.exec w.director).2 })
    (done : ∀ a, (call.exec w.director).1 = .ok a →
      post (.ok a) { w with director := (call.exec w.director).2 }) :
    Yields may (Step.onDirector call) w post := by
  rintro b rfl breaks
  rw [exec_onDirector]
  refine ⟨breaks, ?_⟩
  cases result : (call.exec b.director).1 with
  | error e => exact failed e result
  | ok a => exact done a result

theorem onStore_told {kind : Store.CallKind} {rename : String → BrokerError}
    {call : Call StoreError (Store.Outages MemoryStore) α} {inner : Call StoreError MemoryStore α}
    (imitates : Store.Imitates may kind call inner)
    (failed : may kind → ∀ text, post (.error (rename text)) w)
    (done : post ((inner.exec w.records).1.mapError (rename ·.chain))
      { w with records := (inner.exec w.records).2 }) :
    Yields may (Step.onStore rename call) w post := by
  rintro b rfl breaks
  obtain ⟨kept, ⟨allowed, ⟨e, broken⟩, same⟩ | ⟨result, same⟩⟩ := imitates b.records breaks
  · rw [exec_onStore, broken]
    refine ⟨kept, ?_⟩
    have unchanged : settled { b with records := (call.exec b.records).2 } = b.settled := by
      simp only [settled, same]
    rw [unchanged]
    exact failed allowed _
  · rw [exec_onStore, result]
    refine ⟨kept, ?_⟩
    simp only [settled, same]
    exact done

theorem onStore {kind : Store.CallKind} {rename : String → BrokerError}
    {call : Call StoreError (Store.Outages MemoryStore) α} {inner : Call StoreError MemoryStore α}
    (imitates : Store.Imitates may kind call inner) (failed : may kind → ∀ e, post (.error e) w)
    (done : post ((inner.exec w.records).1.mapError (rename ·.chain))
      { w with records := (inner.exec w.records).2 }) :
    Yields may (Step.onStore rename call) w post :=
  onStore_told imitates (fun allowed _ => failed allowed _) done

section Memory

theorem findInstance {id : String}
    {post : Except BrokerError (Option Instance) → Broker δ MemoryStore → Prop}
    (failed : may .findInstance → ∀ e, post (.error e) w)
    (done : post (.ok (w.records.instances.find? (·.id = id))) w) :
    Yields may (read (MemoryStore.store.unreliable.findInstance id)) w post :=
  onStore (Store.imitates_guard _ _ _ ⟨_, rfl⟩) failed done

theorem instances {post : Except BrokerError (List Instance) → Broker δ MemoryStore → Prop}
    (failed : may .instances → ∀ e, post (.error e) w)
    (done : post (.ok w.records.instances) w) :
    Yields may (read MemoryStore.store.unreliable.instances) w post :=
  onStore (Store.imitates_guard _ _ _ ⟨_, rfl⟩) failed done

theorem instancesOn {deployment : String}
    {post : Except BrokerError (List Instance) → Broker δ MemoryStore → Prop}
    (failed : may .instances → ∀ e, post (.error e) w)
    (done : post (.ok (w.records.instances.filter (·.deployment = deployment))) w) :
    Yields may (read (MemoryStore.store.unreliable.instancesOn deployment)) w post :=
  onStore (Store.imitates_instancesOn may deployment) failed done

theorem saveRecord_told {kind : Store.CallKind} (check : Except RecordFault Unit)
    (put : MemoryStore → MemoryStore)
    {post : Except BrokerError Unit → Broker δ MemoryStore → Prop}
    (failed : may kind ∨ check ≠ .ok () → ∀ text, post (.error (.dbSave text)) w)
    (done : post (.ok ()) { w with records := put w.records }) :
    Yields may (save (Unreliable.guard kind Store.Failure.result (MemoryStore.save check put)))
      w post := by
  refine onStore_told (Store.imitates_guard _ _ _ ⟨_, rfl⟩) (fun h => failed (.inl h)) ?_
  rw [MemoryStore.save, Call.exec_of]
  cases valid : check with
  | error fault => exact failed (.inr (by simp [valid])) _
  | ok _ => exact done

theorem saveRecord {kind : Store.CallKind} (check : Except RecordFault Unit)
    (put : MemoryStore → MemoryStore)
    {post : Except BrokerError Unit → Broker δ MemoryStore → Prop}
    (failed : may kind ∨ check ≠ .ok () → ∀ e, post (.error e) w)
    (done : post (.ok ()) { w with records := put w.records }) :
    Yields may (save (Unreliable.guard kind Store.Failure.result (MemoryStore.save check put)))
      w post :=
  saveRecord_told check put (fun unsaved _ => failed unsaved _) done

theorem saveInstance_told {i : Instance}
    {post : Except BrokerError Unit → Broker δ MemoryStore → Prop}
    (failed : may .saveInstance ∨ i.validate ≠ .ok () → ∀ text, post (.error (.dbSave text)) w)
    (done : post (.ok ()) { w with records := w.records.putInstance i }) :
    Yields may (save (MemoryStore.store.unreliable.saveInstance i)) w post :=
  saveRecord_told i.validate (·.putInstance i) failed done

theorem saveInstance {i : Instance}
    {post : Except BrokerError Unit → Broker δ MemoryStore → Prop}
    (failed : may .saveInstance ∨ i.validate ≠ .ok () → ∀ e, post (.error e) w)
    (done : post (.ok ()) { w with records := w.records.putInstance i }) :
    Yields may (save (MemoryStore.store.unreliable.saveInstance i)) w post :=
  saveInstance_told (fun unsaved _ => failed unsaved _) done

theorem deleteInstance {id : String}
    {post : Except BrokerError Unit → Broker δ MemoryStore → Prop}
    (failed : may .deleteInstance → ∀ e, post (.error e) w)
    (done : post (.ok ()) { w with records := w.records.removeInstance id }) :
    Yields may (delete (MemoryStore.store.unreliable.deleteInstance id)) w post :=
  onStore (Store.imitates_guard _ _ _ ⟨_, rfl⟩) failed done

theorem bindings {id : String}
    {post : Except BrokerError (List Binding) → Broker δ MemoryStore → Prop}
    (failed : may .bindings → ∀ e, post (.error e) w)
    (done : post (.ok (w.records.bindings.filter (·.instanceId = id))) w) :
    Yields may (read (MemoryStore.store.unreliable.bindings id)) w post :=
  onStore (Store.imitates_guard _ _ _ ⟨_, rfl⟩) failed done

theorem findBinding {id : String}
    {post : Except BrokerError (Option Binding) → Broker δ MemoryStore → Prop}
    (failed : may .findBinding → ∀ e, post (.error e) w)
    (done : post (.ok (w.records.bindings.find? (·.id = id))) w) :
    Yields may (read (MemoryStore.store.unreliable.findBinding id)) w post :=
  onStore (Store.imitates_guard _ _ _ ⟨_, rfl⟩) failed done

theorem saveBinding {binding : Binding}
    {post : Except BrokerError Unit → Broker δ MemoryStore → Prop}
    (failed : may .saveBinding ∨ binding.validate ≠ .ok () → ∀ e, post (.error e) w)
    (done : post (.ok ()) { w with records := w.records.putBinding binding }) :
    Yields may (save (MemoryStore.store.unreliable.saveBinding binding)) w post :=
  saveRecord binding.validate (·.putBinding binding) failed done

theorem deleteBinding {id : String}
    {post : Except BrokerError Unit → Broker δ MemoryStore → Prop}
    (failed : may .deleteBinding → ∀ e, post (.error e) w)
    (done : post (.ok ()) { w with records := w.records.removeBinding id }) :
    Yields may (delete (MemoryStore.store.unreliable.deleteBinding id)) w post :=
  onStore (Store.imitates_guard _ _ _ ⟨_, rfl⟩) failed done

end Memory

end Yields

end Step

end Broker

end LedgerBroker
