import LedgerBroker.Proofs.Tenancy
import Mathlib.Data.Set.Insert

set_option autoImplicit false

namespace LedgerBroker

def Call.SavesNothing {σ α : Type} (call : Call BrokerError σ α) : Prop :=
  ∀ x text, (call.exec x).1 ≠ .error (.dbSave text)

structure Director.SavesNothing {δ : Type} (d : Director δ) : Prop where
  createDeployment (m : Manifest) : (d.createDeployment m).SavesNothing
  deleteDeployment (name : String) : (d.deleteDeployment name).SavesNothing
  task (token : String) : (d.task token).SavesNothing
  vmIps (name : String) : (d.vmIps name).SavesNothing
  deployments : d.deployments.SavesNothing
  network (name : String) : (d.network name).SavesNothing

theorem Binding.validate_eq_ok {b : Binding} :
    b.validate = .ok () ↔ b.id ≠ "" ∧ b.instanceId ≠ "" := by
  simp only [validate, check_eq_ok, last_check_eq_ok, ne_eq]
  exact and_comm

namespace Store

variable {ρ α : Type}

/-- A store that takes in every valid record and gives back only instances it was given. In state `r`
it has no instances but those in `S` if `holds r S`. -/
structure Faithful (store : Store ρ) (holds : ρ → Set Instance → Prop) : Prop where
  saveInstance : ∀ {r S} (i : Instance), holds r S → i.validate = .ok () →
    ((store.saveInstance i).exec r).1 = .ok () ∧
      holds ((store.saveInstance i).exec r).2 (insert i S)
  findInstance : ∀ {r S} (id : String), holds r S →
    holds ((store.findInstance id).exec r).2 S ∧
      ∀ i, ((store.findInstance id).exec r).1 = .ok (some i) → i ∈ S ∧ i.id = id
  instances : ∀ {r S}, holds r S → holds (store.instances.exec r).2 S ∧
    ∀ l, (store.instances.exec r).1 = .ok l → ∀ i ∈ l, i ∈ S
  deleteInstance : ∀ {r S} (id : String), holds r S → holds ((store.deleteInstance id).exec r).2 S
  saveBinding : ∀ {r S} (b : Binding), holds r S → b.validate = .ok () →
    ((store.saveBinding b).exec r).1 = .ok () ∧ holds ((store.saveBinding b).exec r).2 S
  findBinding : ∀ {r S} (id : String), holds r S → holds ((store.findBinding id).exec r).2 S
  deleteBinding : ∀ {r S} (id : String), holds r S → holds ((store.deleteBinding id).exec r).2 S
  bindings : ∀ {r S} (id : String), holds r S → holds ((store.bindings id).exec r).2 S

structure Handed where
  instances : List Instance := []
  bindings : List Binding := []

structure Handed.Valid (h : Handed) : Prop where
  instances : ∀ i ∈ h.instances, i.validate = .ok ()
  bindings : ∀ b ∈ h.bindings, b.validate = .ok ()

theorem Handed.valid_nothing : Valid {} :=
  ⟨fun _ mem => absurd mem List.not_mem_nil, fun _ mem => absurd mem List.not_mem_nil⟩

def Handed.withInstance (h : Handed) (i : Instance) : Handed :=
  { h with instances := i :: h.instances }

def Handed.withBinding (h : Handed) (b : Binding) : Handed := { h with bindings := b :: h.bindings }

theorem Handed.Valid.withInstance {h : Handed} (handed : h.Valid) {i : Instance}
    (valid : i.validate = .ok ()) : (h.withInstance i).Valid :=
  ⟨by simpa [Handed.withInstance, valid] using handed.instances, handed.bindings⟩

theorem Handed.Valid.withBinding {h : Handed} (handed : h.Valid) {b : Binding}
    (valid : b.validate = .ok ()) : (h.withBinding b).Valid :=
  ⟨handed.instances, by simpa [Handed.withBinding, valid] using handed.bindings⟩

def noting (note : Handed → Handed) (call : Call StoreError ρ α) :
    Call StoreError (ρ × Handed) α :=
  call.onPart Prod.fst (fun t r => (r, note t.2)) id

def logged (store : Store ρ) : Store (ρ × Handed) where
  saveInstance i := noting (·.withInstance i) (store.saveInstance i)
  findInstance id := noting (fun h => h) (store.findInstance id)
  instances := noting (fun h => h) store.instances
  deleteInstance id := noting (fun h => h) (store.deleteInstance id)
  saveBinding b := noting (·.withBinding b) (store.saveBinding b)
  findBinding id := noting (fun h => h) (store.findBinding id)
  deleteBinding id := noting (fun h => h) (store.deleteBinding id)
  bindings id := noting (fun h => h) (store.bindings id)

theorem logged_instancesOn (store : Store ρ) (deployment : String) :
    store.logged.instancesOn deployment = noting (fun h => h) (store.instancesOn deployment) := by
  have run (t : ρ × Handed) : (store.logged.instancesOn deployment).exec t =
      (noting (fun h => h) (store.instancesOn deployment)).exec t := by
    simp only [instancesOn, logged, noting, Call.exec_bind, Call.exec_onPart, Call.mapError_id]
    cases (store.instances.exec t.1).1 <;> rfl
  exact funext run

end Store

open Store (Handed)

def Services.logged {δ ρ : Type} (s : Services δ ρ) : Services δ (ρ × Handed) :=
  { director := s.director, store := s.store.logged, details := s.details }

namespace Broker

variable {δ ρ α β : Type}

def unlogged (b : Broker δ (ρ × Handed)) : Broker δ ρ := ⟨b.pool, b.director, b.records.1⟩

def AllValid (S : Set Instance) : Prop := ∀ i ∈ S, i.validate = .ok ()

/-- The broker knows valid instances and networks with a name only, and has these orphans. -/
structure Recordable (holds : ρ → Set Instance → Prop) (orphans : List (String × String))
    (b : Broker δ (ρ × Handed)) : Prop where
  configured : ∀ n ∈ b.pool.configured, n ≠ ""
  available : ∀ n ∈ b.pool.available, n ≠ ""
  orphans : b.pool.orphans = orphans
  held : ∃ S, holds b.records.1 S ∧ AllValid S
  handed : b.records.2.Valid

inductive Spared (d : Director δ) (post : α → Prop) : Except BrokerError α → Prop
  | ok {a : α} (h : post a) : Spared d post (.ok a)
  | error {e : BrokerError} (other : d.SavesNothing → ∀ text, e ≠ .dbSave text) :
      Spared d post (.error e)

namespace Step

variable {d : Director δ} {holds : ρ → Set Instance → Prop} {orphans : List (String × String)}
  {x : Step δ (ρ × Handed) α} {y : Step δ ρ α} {post : α → Prop}

def Records (d : Director δ) (holds : ρ → Set Instance → Prop) (orphans : List (String × String))
    (x : Step δ (ρ × Handed) α) (y : Step δ ρ α) (post : α → Prop) : Prop :=
  ∀ b, Recordable holds orphans b →
    y.exec b.unlogged = ((x.exec b).1, (x.exec b).2.unlogged) ∧
      Recordable holds orphans (x.exec b).2 ∧ Spared d post (x.exec b).1

namespace Records

theorem pure {a : α} (h : post a) :
    Records d holds orphans (Pure.pure a) (Pure.pure a) post :=
  fun _ sound => ⟨rfl, sound, .ok h⟩

theorem throw {e : BrokerError} (other : d.SavesNothing → ∀ text, e ≠ .dbSave text) :
    Records d holds orphans (MonadExcept.throw e) (MonadExcept.throw e) post :=
  fun _ sound => ⟨rfl, sound, .error other⟩

theorem bind {f : α → Step δ (ρ × Handed) β} {f' : α → Step δ ρ β} {post' : β → Prop}
    (first : Records d holds orphans x y post)
    (rest : ∀ a, post a → Records d holds orphans (f a) (f' a) post') :
    Records d holds orphans (x >>= f) (y >>= f') post' := by
  intro b sound
  obtain ⟨same, after, spared⟩ := first b sound
  rw [Call.exec_bind, Call.exec_bind, same]
  cases result : (x.exec b).1 with
  | error e =>
    rw [result] at spared
    cases spared with
    | error other => exact ⟨rfl, after, .error other⟩
  | ok a =>
    rw [result] at spared
    cases spared with
    | ok h => exact rest a h _ after

theorem refused {f : α → Step δ (ρ × Handed) β} {f' : α → Step δ ρ β} {post' : β → Prop}
    {e : BrokerError} (other : d.SavesNothing → ∀ text, e ≠ .dbSave text) :
    Records d holds orphans (MonadExcept.throw e >>= f) (MonadExcept.throw e >>= f') post' := by
  have fails : Records d holds orphans (MonadExcept.throw e : Step δ (ρ × Handed) α)
    (MonadExcept.throw e) fun _ => False := .throw other
  exact fails.bind fun _ no => no.elim

theorem ite {c : Prop} [Decidable c] {x' : Step δ (ρ × Handed) α} {y' : Step δ ρ α}
    (pos : c → Records d holds orphans x y post)
    (neg : ¬c → Records d holds orphans x' y' post) :
    Records d holds orphans (if c then x else x') (if c then y else y') post := by
  by_cases h : c
  · rw [if_pos h, if_pos h]; exact pos h
  · rw [if_neg h, if_neg h]; exact neg h

theorem tryCatch {handle : BrokerError → Step δ (ρ × Handed) α}
    {handle' : BrokerError → Step δ ρ α} (first : Records d holds orphans x y post)
    (rest : ∀ e, (d.SavesNothing → ∀ text, e ≠ .dbSave text) →
      Records d holds orphans (handle e) (handle' e) post) :
    Records d holds orphans (MonadExcept.tryCatch x handle) (MonadExcept.tryCatch y handle')
      post := by
  intro b sound
  obtain ⟨same, after, spared⟩ := first b sound
  rw [Call.exec_tryCatch, Call.exec_tryCatch, same]
  cases result : (x.exec b).1 with
  | ok a =>
    rw [result] at spared
    exact ⟨rfl, after, spared⟩
  | error e =>
    rw [result] at spared
    cases spared with
    | error other => exact rest e other _ after

theorem release (network : String) :
    Records d holds orphans (Step.onPool (·.release network)) (Step.onPool (·.release network))
      fun _ => True := by
  intro b sound
  refine ⟨rfl, ⟨?_, fun n mem => ?_, ?_, sound.held, sound.handed⟩, .ok trivial⟩
  · exact NetworkPool.configured_release (p := b.pool) ▸ sound.configured
  · -- A network comes back only if it is one of those configured.
    change n ∈ (b.pool.release network).available at mem
    rcases NetworkPool.mem_available_release.mp mem with free | ⟨rfl, configured, _⟩
    · exact sound.available n free
    · exact sound.configured _ configured
  · exact NetworkPool.orphans_release.trans sound.orphans

theorem orElseRelease (first : Records d holds orphans x y post) (network : String) :
    Records d holds orphans (Step.orElseUndo x (·.release network))
      (Step.orElseUndo y (·.release network)) post :=
  first.tryCatch fun _ other => (release network).bind fun _ _ => .throw other

theorem acquireNetwork (choice : Nat) :
    Records d holds orphans (Step.acquireNetwork choice) (Step.acquireNetwork choice) (· ≠ "") := by
  intro b sound
  have same : b.unlogged.pool = b.pool := rfl
  cases acquired : b.pool.acquire choice with
  | error e =>
    obtain ⟨_, rfl⟩ := NetworkPool.eq_nil_of_acquire acquired
    rw [exec_acquireNetwork_error acquired, exec_acquireNetwork_error (same ▸ acquired)]
    exact ⟨rfl, sound, .error nofun⟩
  | ok taken =>
    obtain ⟨network, pool⟩ := taken
    rw [exec_acquireNetwork_ok acquired, exec_acquireNetwork_ok (same ▸ acquired)]
    have free (n : String) (mem : n ∈ pool.available) : n ∈ b.pool.available :=
      ((NetworkPool.mem_available_acquire acquired).mp mem).1
    refine ⟨rfl, ⟨?_, fun n mem => sound.available n (free n mem), ?_, sound.held, sound.handed⟩,
      .ok (sound.available _ (NetworkPool.acquire_ok acquired).1)⟩
    · exact NetworkPool.configured_acquire acquired ▸ sound.configured
    · exact (NetworkPool.orphans_acquire acquired).trans sound.orphans

theorem onDirector {call : Call BrokerError δ α} (other : d.SavesNothing → call.SavesNothing) :
    Records d holds orphans (Step.onDirector call) (Step.onDirector call) fun _ => True := by
  intro b sound
  rw [exec_onDirector, exec_onDirector]
  refine ⟨rfl, { sound with }, ?_⟩
  cases result : (call.exec b.director).1 with
  | ok a => exact .ok trivial
  | error e => exact .error fun honest text same => other honest _ text (same ▸ result)

theorem onStore {rename : String → BrokerError} {note : Handed → Handed}
    {call : Call StoreError ρ α} (noted : ∀ h : Handed, h.Valid → (note h).Valid)
    (kept : ∀ r S, holds r S → AllValid S →
      (∃ S', holds (call.exec r).2 S' ∧ AllValid S') ∧
        Spared d post ((call.exec r).1.mapError (rename ·.chain))) :
    Records d holds orphans (Step.onStore rename (Store.noting note call))
      (Step.onStore rename call) post := by
  intro b sound
  obtain ⟨S, holding, valid⟩ := sound.held
  obtain ⟨held, spared⟩ := kept _ S holding valid
  rw [exec_onStore, exec_onStore, Store.noting, Call.exec_onPart, Call.mapError_id]
  exact ⟨rfl, { sound with held := held, handed := noted _ sound.handed }, spared⟩

theorem query {rename : String → BrokerError} {call : Call StoreError ρ α}
    (other : ∀ cause text, rename cause ≠ .dbSave text)
    (kept : ∀ {r S}, holds r S → holds (call.exec r).2 S ∧
      (AllValid S → ∀ a, (call.exec r).1 = .ok a → post a)) :
    Records d holds orphans (Step.onStore rename (Store.noting (fun h => h) call))
      (Step.onStore rename call) post := by
  refine onStore (fun _ valid => valid) fun r S holding valid => ?_
  refine ⟨⟨S, (kept holding).1, valid⟩, ?_⟩
  cases result : (call.exec r).1 with
  | ok a => exact .ok ((kept holding).2 valid a result)
  | error e => exact .error fun _ => other _

theorem save {call : Call StoreError ρ Unit} {note : Handed → Handed}
    (noted : ∀ h : Handed, h.Valid → (note h).Valid)
    (saved : ∀ r S, holds r S → AllValid S → (call.exec r).1 = .ok () ∧
      ∃ S', holds (call.exec r).2 S' ∧ AllValid S') :
    Records d holds orphans (Step.save (Store.noting note call)) (Step.save call)
      fun _ => True := by
  refine onStore noted fun r S holding valid => ⟨(saved r S holding valid).2, ?_⟩
  have stored := (saved r S holding valid).1
  generalize (call.exec r).1 = result at stored ⊢
  rw [stored]
  exact .ok trivial

section Calls

variable {s : Services δ ρ} (faithful : s.store.Faithful holds)

include faithful

theorem findInstance (id : String) :
    Records d holds orphans (read (s.logged.store.findInstance id)) (read (s.store.findInstance id))
      fun found => ∀ i, found = some i → i.validate = .ok () ∧ i.id = id := by
  refine query nofun fun holding => ?_
  obtain ⟨kept, known⟩ := faithful.findInstance id holding
  refine ⟨kept, fun valid a result i same => ?_⟩
  obtain ⟨mem, own⟩ := known i (same ▸ result)
  exact ⟨valid i mem, own⟩

theorem instances :
    Records d holds orphans (read s.logged.store.instances) (read s.store.instances)
      fun found => ∀ i ∈ found, i.validate = .ok () :=
  query nofun fun holding => ⟨(faithful.instances holding).1, fun valid l result i mem =>
    valid i ((faithful.instances holding).2 l result i mem)⟩

theorem instancesOn (deployment : String) :
    Records d holds orphans (read (s.logged.store.instancesOn deployment))
      (read (s.store.instancesOn deployment)) fun found => ∀ i ∈ found, i.validate = .ok () := by
  have logged : s.logged.store.instancesOn deployment =
      Store.noting (fun h => h) (s.store.instancesOn deployment) := s.store.logged_instancesOn _
  rw [logged]
  refine query nofun fun {r S} holding => ?_
  obtain ⟨kept, known⟩ := faithful.instances holding
  simp only [Store.instancesOn, Call.exec_bind]
  cases result : (s.store.instances.exec r).1 with
  | error e =>
    refine ⟨kept, fun _ _ done => ?_⟩
    cases done
  | ok l =>
    refine ⟨kept, fun valid found done i mem => ?_⟩
    obtain rfl := Except.ok.inj done
    exact valid i (known l result i (List.mem_filter.mp mem).1)

theorem deleteInstance (id : String) :
    Records d holds orphans (delete (s.logged.store.deleteInstance id))
      (delete (s.store.deleteInstance id)) fun _ => True :=
  query nofun fun holding => ⟨faithful.deleteInstance id holding, fun _ _ _ => trivial⟩

theorem findBinding (id : String) :
    Records d holds orphans (read (s.logged.store.findBinding id)) (read (s.store.findBinding id))
      fun _ => True :=
  query nofun fun holding => ⟨faithful.findBinding id holding, fun _ _ _ => trivial⟩

theorem deleteBinding (id : String) :
    Records d holds orphans (delete (s.logged.store.deleteBinding id))
      (delete (s.store.deleteBinding id)) fun _ => True :=
  query nofun fun holding => ⟨faithful.deleteBinding id holding, fun _ _ _ => trivial⟩

theorem bindings (id : String) :
    Records d holds orphans (read (s.logged.store.bindings id)) (read (s.store.bindings id))
      fun _ => True :=
  query nofun fun holding => ⟨faithful.bindings id holding, fun _ _ _ => trivial⟩

theorem saveInstance {i : Instance} (valid : i.validate = .ok ()) :
    Records d holds orphans (Step.save (s.logged.store.saveInstance i))
      (Step.save (s.store.saveInstance i)) fun _ => True := by
  refine save (fun h handed => handed.withInstance valid) fun r S holding known => ?_
  obtain ⟨saved, held⟩ := faithful.saveInstance i holding valid
  exact ⟨saved, _, held, Set.forall_mem_insert.mpr ⟨valid, known⟩⟩

theorem saveInstanceOrElse {i : Instance} (valid : i.validate = .ok ())
    (undo : NetworkPool → NetworkPool) :
    Records d holds orphans (Step.orElseUndo (Step.save (s.logged.store.saveInstance i)) undo)
      (Step.orElseUndo (Step.save (s.store.saveInstance i)) undo) fun _ => True := by
  intro b sound
  obtain ⟨S, holding, _⟩ := sound.held
  have saved := (faithful.saveInstance i holding valid).1
  have stored : ((Step.save (s.store.saveInstance i)).exec b.unlogged).1 = .ok () := by
    rw [Step.save, exec_onStore]
    exact congrArg (Except.mapError _) saved
  obtain ⟨same, after, _⟩ := saveInstance (d := d) faithful valid b sound
  have logged : ((Step.save (s.logged.store.saveInstance i)).exec b).1 = .ok () :=
    (congrArg Prod.fst same).symm.trans stored
  rw [Step.orElseUndo, Step.orElseUndo, Call.exec_tryCatch, Call.exec_tryCatch, same, logged]
  exact ⟨rfl, after, .ok trivial⟩

theorem saveBinding {b : Binding} (valid : b.validate = .ok ()) :
    Records d holds orphans (Step.save (s.logged.store.saveBinding b))
      (Step.save (s.store.saveBinding b)) fun _ => True := by
  refine save (fun h handed => handed.withBinding valid) fun r S holding known => ?_
  obtain ⟨saved, held⟩ := faithful.saveBinding b holding valid
  exact ⟨saved, _, held, known⟩

end Calls

end Records

end Step

section Operations

open Step (Records)

variable {d : Director δ} {store : Store ρ} {details : DirectorDetails}
  {holds : ρ → Set Instance → Prop} {orphans : List (String × String)} {s : Services δ ρ}
  (faithful : s.store.Faithful holds)

include faithful

theorem joinable_records (deployment : String) :
    Records s.director holds orphans (joinable s.logged deployment) (joinable s deployment)
      fun live => ∀ i, live = some i → i.validate = .ok () := by
  unfold joinable
  refine .bind (.instancesOn faithful deployment) fun existing valid => ?_
  refine .ite (fun _ => .pure fun _ none => nomatch none) fun _ => ?_
  split
  next => exact .throw nofun
  next live found =>
    refine .pure fun i same => ?_
    obtain rfl := Option.some.inj same
    exact valid _ (List.mem_of_find?_eq_some found)

theorem isTaken_records (deployment : String) :
    Records s.director holds orphans (isTaken s.logged deployment) (isTaken s deployment)
      fun _ => True := by
  intro b
  exact Records.ite (fun _ => .pure trivial)
    (fun _ => .bind (.instancesOn faithful deployment) fun _ _ => .pure trivial) b

theorem deploy_records {id : String} (named : id ≠ "") (plan : Plan) (request : Request)
    (choice : Nat) (now : Timestamp) :
    Records s.director holds orphans (deploy s.logged id plan request choice now)
      (deploy s id plan request choice now) fun _ => True := by
  refine .bind (.acquireNetwork choice) fun network placed => ?_
  refine .bind (.orElseRelease (.onDirector (·.createDeployment _)) network) fun task _ => ?_
  have valid : (Instance.new id (plan.deployment id) network task.token request now).validate =
      .ok () := Instance.validate_new.mpr ⟨named, placed⟩
  exact .bind (.saveInstanceOrElse faithful valid _) fun _ _ => .pure trivial

theorem deployUnlessTaken_records {id : String} (named : id ≠ "") (plan : Plan)
    (request : Request) (choice : Nat) (now : Timestamp) :
    Records s.director holds orphans
      (do
        if ← isTaken s.logged (plan.deployment id) then throw (.instanceAlreadyExists id)
        deploy s.logged id plan request choice now)
      (do
        if ← isTaken s (plan.deployment id) then throw (.instanceAlreadyExists id)
        deploy s id plan request choice now) fun _ => True :=
  .bind (isTaken_records faithful _) fun _ _ =>
    .ite (fun _ => .refused nofun) fun _ => deploy_records faithful named plan request choice now

theorem provision_records {id : String} (named : id ≠ "") (request : Request) (accepts : Bool)
    (choice : Nat) (now : Timestamp) :
    Records s.director holds orphans (provision s.logged id request accepts choice now)
      (provision s id request accepts choice now) fun _ => True := by
  unfold provision
  refine .ite (fun _ => .refused nofun) fun _ => ?_
  dsimp only
  split
  next plan _ =>
    have alone : Records s.director holds orphans _ _ _ :=
      deployUnlessTaken_records faithful named plan request choice now
    refine .bind (.findInstance faithful id) fun _ _ => .ite (fun _ => .refused nofun) fun _ => ?_
    refine .ite (fun _ => .bind (joinable_records faithful _) fun live known => ?_) fun _ => ?_
    · cases live with
      | none => exact alone
      | some live =>
        -- The new instance is put where a valid one is.
        have placed := (Instance.validate_eq_ok.mp (known live rfl)).2.2.1
        have valid : (Instance.new id (plan.deployment id) live.network live.provisionTask request
            now).validate = .ok () := Instance.validate_new.mpr ⟨named, placed⟩
        exact .bind (.saveInstance faithful valid) fun _ _ => .pure trivial
    · exact fun b => alone b
  next => exact .throw nofun

omit faithful in
theorem isBeingDeployed_records (i : Instance) :
    Records s.director holds orphans (isBeingDeployed s.logged i) (isBeingDeployed s i)
      fun _ => True := by
  refine .tryCatch (.bind (.onDirector (·.task _)) fun _ _ => .pure trivial) fun e other => ?_
  split
  next => exact .pure trivial
  next => exact .throw other

theorem deprovision_records (id : String) (accepts : Bool) (now : Timestamp) :
    Records s.director holds orphans (deprovision s.logged id accepts now)
      (deprovision s id accepts now) fun _ => True := by
  unfold deprovision
  refine .ite (fun _ => .refused nofun) fun _ => .bind (.findInstance faithful id) fun found known => ?_
  split
  next i =>
    split
    next => exact .pure trivial
    next =>
      refine .bind (isBeingDeployed_records i) fun _ _ => .ite (fun _ => .refused nofun)
        fun _ => ?_
      refine .bind (.bindings faithful id) fun _ _ => .ite (fun _ => .refused nofun) fun _ => ?_
      refine .bind (.instancesOn faithful _) fun _ _ => .ite
        (fun _ => .bind (.deleteInstance faithful id) fun _ _ => .pure trivial) fun _ => ?_
      refine .bind (.onDirector (·.deleteDeployment _)) fun task _ => ?_
      -- What a mark changes in a record has nothing to do with whether it is valid.
      have valid : (i.markDeprovisioning task.token now).validate = .ok () := (known i rfl).1
      exact .bind (.saveInstance faithful valid) fun _ _ => .pure trivial
  next => exact .throw nofun

theorem poll_records (id : String) (operation : Option String) :
    Records s.director holds orphans (poll s.logged id operation) (poll s id operation)
      fun _ => True := by
  unfold poll
  split
  next =>
    refine .bind (.findInstance faithful id) fun found _ => ?_
    split
    next => exact .bind (.onDirector (·.task _)) fun _ _ => .pure trivial
    next => exact .throw nofun
  next => exact .throw nofun

theorem completeDeprovision_records (id : String) :
    Records s.director holds orphans (completeDeprovision s.logged id) (completeDeprovision s id)
      fun _ => True := by
  refine .bind (.findInstance faithful id) fun found _ => ?_
  split
  next =>
    refine .bind (.deleteInstance faithful id) fun _ _ => .bind (.instances faithful) fun _ _ => ?_
    exact .ite (fun _ => .release _) fun _ => .pure trivial
  next => exact .pure trivial

theorem lastOperation_records (id : String) (operation : Option String) :
    Records s.director holds orphans (lastOperation s.logged id operation)
      (lastOperation s id operation) fun _ => True :=
  .bind (poll_records faithful id operation) fun _ _ =>
    .ite (fun _ => .bind (completeDeprovision_records faithful id) fun _ _ => .pure trivial)
      fun _ => .pure trivial

theorem bind_records (id : String) {bindingId : String} (named : bindingId ≠ "")
    (request : BindRequest) (now : Timestamp) :
    Records s.director holds orphans (bind s.logged id bindingId request now)
      (bind s id bindingId request now) fun _ => True := by
  unfold bind
  refine .ite (fun _ => .refused nofun) fun _ => .bind (.findBinding faithful _) fun _ _ =>
    .ite (fun _ => .refused nofun) fun _ => .bind (.findInstance faithful id) fun found known => ?_
  split
  next i =>
    refine .ite (fun _ => .refused nofun) fun _ => .bind (.onDirector (·.task _)) fun _ _ =>
      .ite (fun _ => .refused nofun) fun _ => .bind (.onDirector (·.vmIps _)) fun _ _ => ?_
    -- The id of an instance that is there is one of a valid record.
    obtain ⟨valid, own⟩ := known i rfl
    have valid : (Binding.mk bindingId id now).validate = .ok () := by
      rw [Binding.validate_eq_ok]
      exact ⟨named, own ▸ (Instance.validate_eq_ok.mp valid).1⟩
    exact .bind (.saveBinding faithful valid) fun _ _ => .pure trivial
  next => exact .throw nofun

theorem unbind_records (id bindingId : String) :
    Records s.director holds orphans (unbind s.logged id bindingId) (unbind s id bindingId)
      fun _ => True := by
  unfold unbind
  refine .bind (.findInstance faithful id) fun _ _ => .ite (fun _ => .refused nofun) fun _ =>
    .bind (.findBinding faithful _) fun _ _ => ?_
  split
  next => exact .deleteBinding faithful _
  next => exact .throw nofun

omit faithful in
theorem unrecorded_records (known names : List String) :
    Records s.director holds orphans (unrecorded s.logged known names) (unrecorded s known names)
      fun _ => True := by
  induction names with
  | nil => exact .pure trivial
  | cons name rest ih =>
    unfold unrecorded
    refine .ite (fun _ => ih) fun _ => .bind (.onDirector (·.network _)) fun network _ => ?_
    cases network with
    | none => exact ih
    | some network => exact .bind ih fun _ _ => .pure trivial

end Operations

section Opening

open Step (Records)

variable {s : Services δ ρ} {holds : ρ → Set Instance → Prop} {orphans : List (String × String)}
  {networks : List String} {x : δ} {r : ρ} {b : Broker δ ρ}

def logging (b : Broker δ ρ) : Broker δ (ρ × Handed) := ⟨b.pool, b.director, b.records, {}⟩

/-- A broker with these networks that has asked nothing yet, or just which of them are in use. -/
inductive Opened (s : Services δ ρ) (networks : List String) (x : δ) (r : ρ) : Broker δ ρ → Prop
  | unasked : Opened s networks x r (start networks x r)
  | asked {b : Broker δ ρ} (found : (refresh s).exec (start networks x r) = (.ok (), b)) :
      Opened s networks x r b

theorem recordable_start (named : "" ∉ networks) (empty : holds r ∅) :
    Recordable holds [] (start networks x r).logging where
  configured _ mem same := named (List.mem_eraseDups.mp (same ▸ mem))
  available _ mem same := named (List.mem_eraseDups.mp (same ▸ mem))
  orphans := rfl
  held := ⟨∅, empty, fun _ mem => absurd mem (Set.notMem_empty _)⟩
  handed := Handed.valid_nothing

theorem Step.Records.lands {α : Type} {d : Director δ} {noted : Step δ (ρ × Handed) α} {step : Step δ ρ α}
    {post : α → Prop} (records : Records d holds orphans noted step post)
    {before : Broker δ (ρ × Handed)} (sound : Recordable holds orphans before)
    {result : Except BrokerError α} (run : step.exec before.unlogged = (result, b)) :
    ∃ after : Broker δ (ρ × Handed), after.unlogged = b ∧ Recordable holds orphans after := by
  obtain ⟨same, after, _⟩ := records before sound
  exact ⟨_, (Prod.mk.inj (same.symm.trans run)).2, after⟩

theorem Opened.recordable (opened : Opened s networks x r b) (faithful : s.store.Faithful holds)
    (named : "" ∉ networks) (empty : holds r ∅) :
    Recordable holds b.pool.orphans b.logging := by
  have sound : Recordable holds [] (start networks x r).logging := recordable_start named empty
  cases opened with
  | unasked => exact sound
  | asked found =>
    -- Only the last step of a refresh changes the pool, and it frees configured networks only.
    obtain ⟨instances, b₁, listed, found⟩ := Call.ok_of_exec_bind found
    obtain ⟨deployments, b₂, deployed, found⟩ := Call.ok_of_exec_bind found
    obtain ⟨others, b₃, surveyed, found⟩ := Call.ok_of_exec_bind found
    have lists : Records s.director holds [] (Step.read s.logged.store.instances)
      (Step.read s.store.instances) _ := .instances faithful
    obtain ⟨c₁, rfl, sound⟩ := lists.lands sound listed
    have asks : Records s.director holds [] (Step.onDirector s.director.deployments)
      (Step.onDirector s.director.deployments) _ := .onDirector (·.deployments)
    obtain ⟨c₂, rfl, sound⟩ := asks.lands sound deployed
    obtain ⟨c₃, rfl, sound⟩ := (unrecorded_records _ _).lands sound surveyed
    obtain rfl := (Prod.mk.inj found).2
    refine ⟨sound.configured, fun n free => ?_, rfl, sound.held, Handed.valid_nothing⟩
    exact sound.configured n (NetworkPool.mem_available_refresh.mp free).1

end Opening

end Broker

end LedgerBroker
