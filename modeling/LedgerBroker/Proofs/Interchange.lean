import LedgerBroker.Proofs.Lockstep
import LedgerBroker.Proofs.Run
import Mathlib.Data.List.Forall2

set_option autoImplicit false

namespace LedgerBroker.Broker

open Redis (Server)
open RedisStore (Mirrors Answers)
open Step

variable {δ μ α β γ ε : Type}

namespace Step

variable {ρ : Type}

def SparesRecords (x : Step δ ρ α) : Prop := ∀ b, (x.exec b).2.records = b.records

namespace SparesRecords

theorem pure (a : α) : SparesRecords (Pure.pure a : Step δ ρ α) := fun _ => rfl

theorem throw (e : BrokerError) : SparesRecords (MonadExcept.throw e : Step δ ρ α) := fun _ => rfl

theorem onPool (f : NetworkPool → NetworkPool) :
    SparesRecords (Step.onPool f : Step δ ρ Unit) := fun _ => rfl

theorem onDirector (call : Call BrokerError δ α) :
    SparesRecords (Step.onDirector call : Step δ ρ α) := fun _ => rfl

theorem acquireNetwork (choice : Nat) :
    SparesRecords (Step.acquireNetwork choice : Step δ ρ String) := by
  intro b
  cases taken : b.pool.acquire choice with
  | error e => rw [exec_acquireNetwork_error taken]
  | ok result => rw [exec_acquireNetwork_ok taken]

theorem bind {x : Step δ ρ α} {f : α → Step δ ρ β} (first : SparesRecords x)
    (rest : ∀ a, SparesRecords (f a)) : SparesRecords (x >>= f) := by
  intro b
  rw [Call.exec_bind]
  cases (x.exec b).1 with
  | ok a => exact (rest a _).trans (first b)
  | error e => exact first b

theorem tryCatch {x : Step δ ρ α} {handle : BrokerError → Step δ ρ α} (first : SparesRecords x)
    (rest : ∀ e, SparesRecords (handle e)) : SparesRecords (MonadExcept.tryCatch x handle) := by
  intro b
  have run := Call.exec_tryCatch x handle b
  rw [run]
  cases (x.exec b).1 with
  | ok a => exact first b
  | error e => exact (rest e _).trans (first b)

theorem orElseUndo {x : Step δ ρ α} (first : SparesRecords x) (undo : NetworkPool → NetworkPool) :
    SparesRecords (Step.orElseUndo x undo) :=
  first.tryCatch fun e => (onPool undo).bind fun _ => .throw e

theorem run {x : Step δ ρ α} (spares : SparesRecords x) {b b' : Broker δ ρ}
    {result : Except BrokerError α} (run : x.exec b = (result, b')) : b'.records = b.records := by
  have kept := spares b
  rwa [run] at kept

end SparesRecords

end Step

structure Parallel (b : Broker δ Server) (w : Broker δ MemoryStore) : Prop where
  pool : b.pool = w.pool
  director : b.director = w.director
  records : Mirrors b.records w.records

namespace Step

variable {R : α → β → Prop} {w : Broker δ MemoryStore} {x : Step δ Server α}
  {y : Step δ MemoryStore β}

def Follows (R : α → β → Prop) (x : Step δ Server α) (w : Broker δ MemoryStore)
    (y : Step δ MemoryStore β) : Prop :=
  ∀ b, Parallel b w → Alike R (x.exec b).1 (y.exec w).1 ∧ Parallel (x.exec b).2 (y.exec w).2

namespace Follows

theorem lockstep : Follows R x w y ↔ Call.Lockstep Parallel Parallel R x w y := Iff.rfl

theorem pure {a : α} {a' : β} (related : R a a') : Follows R (Pure.pure a) w (Pure.pure a') :=
  lockstep.mpr (.pure related)

theorem throw (e : BrokerError) :
    Follows R (MonadExcept.throw e) w (MonadExcept.throw e) :=
  lockstep.mpr (.throw e)

theorem bind {α' β' : Type} {S : α' → β' → Prop} {f : α → Step δ Server α'}
    {f' : β → Step δ MemoryStore β'} (first : Follows R x w y)
    (rest : ∀ a a' w', R a a' → y.exec w = (.ok a', w') → Follows S (f a) w' (f' a')) :
    Follows S (x >>= f) w (y >>= f') :=
  lockstep.mpr ((lockstep.mp first).bind fun a a' w' related run =>
    lockstep.mp (rest a a' w' related run))

theorem tryCatch {handle : BrokerError → Step δ Server α} {handle' : BrokerError → Step δ MemoryStore β}
    (first : Follows R x w y)
    (rest : ∀ e, Follows R (handle e) (y.exec w).2 (handle' e)) :
    Follows R (MonadExcept.tryCatch x handle) w (MonadExcept.tryCatch y handle') :=
  lockstep.mpr ((lockstep.mp first).tryCatch (fun _ _ after => after) fun e => lockstep.mp (rest e))

theorem ite {c c' : Prop} [Decidable c] [Decidable c'] {x' : Step δ Server α}
    {y' : Step δ MemoryStore β} (iff : c ↔ c') (pos : c' → Follows R x w y)
    (neg : ¬c' → Follows R x' w y') :
    Follows R (if c then x else x') w (if c' then y else y') :=
  lockstep.mpr (.ite iff (fun h => lockstep.mp (pos h)) fun h => lockstep.mp (neg h))

theorem refused {f : γ → Step δ Server α} {f' : γ → Step δ MemoryStore β} (e : BrokerError) :
    Follows R (MonadExcept.throw e >>= f) w (MonadExcept.throw e >>= f') :=
  lockstep.mpr (.refused e)

theorem get {f : Broker δ Server → Step δ Server α} {f' : Broker δ MemoryStore → Step δ MemoryStore β}
    (rest : ∀ b, Parallel b w → Follows R (f b) w (f' w)) :
    Follows R (MonadState.get >>= f) w (MonadState.get >>= f') :=
  lockstep.mpr (.get fun b parallel => lockstep.mp (rest b parallel))

theorem uniform (rest : w.records.Uniform → Follows R x w y) : Follows R x w y :=
  fun b parallel => rest parallel.records.uniform b parallel

theorem onPool {f f' : NetworkPool → NetworkPool} (same : f w.pool = f' w.pool) :
    Follows Eq (Step.onPool f) w (Step.onPool f') := by
  intro b parallel
  refine ⟨.ok rfl, ?_, parallel.director, parallel.records⟩
  exact (congrArg f parallel.pool).trans same

theorem acquireNetwork (choice : Nat) :
    Follows Eq (Step.acquireNetwork choice) w (Step.acquireNetwork choice) := by
  intro b parallel
  cases taken : w.pool.acquire choice with
  | error e =>
    have refused : b.pool.acquire choice = .error e := by rw [parallel.pool, taken]
    rw [exec_acquireNetwork_error refused, exec_acquireNetwork_error taken]
    exact ⟨.error e, parallel⟩
  | ok result =>
    have acquired : b.pool.acquire choice = .ok (result.1, result.2) := by rw [parallel.pool, taken]
    rw [exec_acquireNetwork_ok acquired, exec_acquireNetwork_ok taken]
    exact ⟨.ok rfl, rfl, parallel.director, parallel.records⟩

theorem onDirector (call : Call BrokerError δ α) :
    Follows Eq (Step.onDirector call) w (Step.onDirector call) := by
  rintro ⟨pool, x, s⟩ ⟨rfl, rfl, mirrors⟩
  rw [exec_onDirector, exec_onDirector]
  refine ⟨?_, rfl, rfl, mirrors⟩
  cases (call.exec w.director).1 with
  | ok a => exact .ok rfl
  | error e => exact .error e

theorem onStore {call : Call StoreError Server α} {call' : Call StoreError MemoryStore β}
    (rename : String → BrokerError) (answers : Answers R call w.records call') :
    Follows R (Step.onStore rename call) w (Step.onStore rename call') := by
  intro b parallel
  obtain ⟨alike, mirrors⟩ := answers b.records parallel.records
  exact ⟨alike.mapError _, parallel.pool, parallel.director, mirrors⟩

theorem orElseUndo (first : Follows R x w y) (undo : NetworkPool → NetworkPool) :
    Follows R (Step.orElseUndo x undo) w (Step.orElseUndo y undo) :=
  first.tryCatch fun e => (onPool rfl).bind fun _ _ _ _ _ => .throw e

theorem ask {α' β' : Type} {S : α' → β' → Prop} {f : α → Step δ Server α'}
    {f' : β → Step δ MemoryStore β'} {call : Call StoreError Server α}
    {call' : Call StoreError MemoryStore β} {a' : β} (answers : Answers R call w.records call')
    (found : call'.exec w.records = (.ok a', w.records))
    (rest : ∀ a, R a a' → Follows S (f a) w (f' a')) :
    Follows S (read call >>= f) w (read call' >>= f') := by
  refine .bind (.onStore _ answers) fun a b w' related run => ?_
  have asked : (Step.onStore .dbRead call' : Step δ MemoryStore β).exec w = (.ok a', w) := by
    rw [exec_onStore, found]
    rfl
  -- The store in memory has nothing to note down, so that the answer is all there is.
  obtain ⟨rfl, rfl⟩ := Call.ok_inj (asked.symm.trans run)
  exact rest a related

theorem tell {α' β' : Type} {S : α' → β' → Prop} {f : α → Step δ Server α'}
    {f' : α → Step δ MemoryStore β'} (call : Call BrokerError δ α)
    (rest : ∀ a x, Follows S (f a) { w with director := x } (f' a)) :
    Follows S (Step.onDirector call >>= f) w (Step.onDirector call >>= f') := by
  refine .bind (.onDirector call) fun a a' w' same run => ?_
  rw [exec_onDirector] at run
  obtain ⟨_, rfl⟩ := Prod.mk.inj run
  exact same ▸ rest a _

end Follows

end Step

section Operations

variable {w : Broker δ MemoryStore} (d : Director δ) (details : DirectorDetails)

abbrev onRedis : Services δ Server := ⟨d, RedisStore.store, details⟩

abbrev plain : Services δ MemoryStore := ⟨d, MemoryStore.store, details⟩

def SamePlace : Option Instance → Option Instance → Prop
  | none, none => True
  | some i, some j => i.network = j.network ∧ i.provisionTask = j.provisionTask
  | _, _ => False

theorem eq_nil_iff_of_perm {l l' : List α} (perm : l.Perm l') : l = [] ↔ l' = [] :=
  ⟨fun none => List.nil_perm.mp (none ▸ perm), fun none => List.perm_nil.mp (none ▸ perm)⟩

theorem samePlace_of_perm {l l' : List Instance} (perm : l.Perm l') (p : Instance → Bool)
    (alike : ∀ i ∈ l', ∀ j ∈ l', i.network = j.network ∧ i.provisionTask = j.provisionTask) :
    SamePlace (l.find? p) (l'.find? p) := by
  cases found : l.find? p with
  | none =>
    have none : l'.find? p = none := by
      rw [List.find?_eq_none] at found ⊢
      exact fun i mem => found i (perm.mem_iff.mpr mem)
    rw [none]
    trivial
  | some i =>
    have mem := perm.mem_iff.mp (List.mem_of_find?_eq_some found)
    cases found' : l'.find? p with
    | none => exact absurd (List.find?_some found) (List.find?_eq_none.mp found' i mem)
    | some j => exact alike i mem j (List.mem_of_find?_eq_some found')

theorem joinable_follows (deployment : String) :
    Follows SamePlace (joinable (onRedis d details) deployment) w
      (joinable (plain d details) deployment) := by
  refine .uniform fun uniform => .ask (.instancesOn deployment) rfl fun existing perm => ?_
  have same := samePlace_of_perm perm (!·.isDeprovisioning) fun i mem j mem' => by
    have ⟨recorded, on⟩ := List.mem_filter.mp mem
    have ⟨recorded', on'⟩ := List.mem_filter.mp mem'
    simp only [decide_eq_true_eq] at on on'
    exact uniform i recorded j recorded' (on.trans on'.symm)
  refine .ite (eq_nil_iff_of_perm perm) (fun _ => .pure trivial) fun _ => ?_
  generalize existing.find? (!·.isDeprovisioning) = live at same ⊢
  generalize (w.records.instances.filter (·.deployment = deployment)).find?
    (!·.isDeprovisioning) = live' at same ⊢
  cases live <;> cases live'
  · exact .throw _
  · exact same.elim
  · exact same.elim
  · exact .pure same

theorem isTaken_follows (deployment : String) :
    Follows Eq (isTaken (onRedis d details) deployment) w
      (isTaken (plain d details) deployment) := by
  refine .get fun b parallel => .ite (by rw [parallel.pool]) (fun _ => .pure rfl) fun _ => ?_
  refine .ask (.instancesOn deployment) rfl fun existing perm => .pure ?_
  simp [eq_nil_iff_of_perm perm]

theorem of_isTaken {deployment : String} {taken : Bool} {w' : Broker δ MemoryStore}
    (run : (isTaken (plain d details) deployment).exec w = (.ok taken, w')) :
    w' = w ∧ (taken = false → ∀ i ∈ w.records.instances, i.deployment ≠ deployment) := by
  have first : (isTaken (plain d details) deployment).exec w =
      (if w.pool.isOrphaned deployment then Pure.pure true else do
        return (← read ((plain d details).store.instancesOn deployment)) ≠ [] :
        Step δ MemoryStore Bool).exec w := rfl
  rw [first] at run
  split at run
  · obtain ⟨rfl, rfl⟩ := Call.ok_inj run
    exact ⟨rfl, nofun⟩
  · obtain ⟨rfl, rfl⟩ := Call.ok_inj run
    refine ⟨rfl, fun free => ?_⟩
    simpa [List.filter_eq_nil_iff] using free

theorem of_joinable {deployment : String} {live : Option Instance} {w' : Broker δ MemoryStore}
    (run : (joinable (plain d details) deployment).exec w = (.ok live, w')) :
    w' = w ∧ ∀ i, live = some i → i ∈ w.records.instances ∧ i.deployment = deployment := by
  have asked : (read ((plain d details).store.instancesOn deployment) :
      Step δ MemoryStore (List Instance)).exec w =
      (.ok (w.records.instances.filter (·.deployment = deployment)), w) := rfl
  rw [joinable, Call.exec_bind_ok asked] at run
  split at run
  · obtain ⟨rfl, rfl⟩ := Call.ok_inj run
    exact ⟨rfl, fun _ same => nomatch same⟩
  · split at run
    next => exact nomatch (Prod.mk.inj run).1
    next i found =>
      obtain ⟨rfl, rfl⟩ := Call.ok_inj run
      refine ⟨rfl, fun j same => ?_⟩
      obtain rfl := Option.some.inj same
      simpa using List.mem_of_find?_eq_some found

section Provision

variable {id : String} {request : Request} {choice : Nat} {now : Timestamp} {plan : Plan}

theorem deploy_follows
    (new : ∀ i ∈ w.records.instances, i.deployment ≠ plan.deployment id) :
    Follows Eq (deploy (onRedis d details) id plan request choice now) w
      (deploy (plain d details) id plan request choice now) := by
  unfold deploy
  refine .bind (.acquireNetwork choice) fun network _ w₁ same run => ?_
  obtain rfl := same
  have kept := (SparesRecords.acquireNetwork choice).run run
  refine .bind (.orElseUndo (.onDirector _) _) fun task _ w₂ same run => ?_
  obtain rfl := same
  have kept := (((SparesRecords.onDirector _).orElseUndo _).run run).trans kept
  -- Nobody else is on the new deployment, so that any network goes with it.
  refine .uniform fun uniform => .bind (.orElseUndo (.onStore _ (.saveInstance ?_)) _)
    fun _ _ _ _ _ => .pure rfl
  refine uniform.put fun j mem same => ?_
  exact absurd same.symm (new j (kept ▸ mem))

theorem deployUnlessTaken_follows :
    Follows Eq
      (do
        if ← isTaken (onRedis d details) (plan.deployment id) then
          throw (.instanceAlreadyExists id)
        deploy (onRedis d details) id plan request choice now)
      w
      (do
        if ← isTaken (plain d details) (plan.deployment id) then
          throw (.instanceAlreadyExists id)
        deploy (plain d details) id plan request choice now) := by
  refine .bind (isTaken_follows d details _) fun taken _ w' same run => ?_
  obtain rfl := same
  obtain ⟨rfl, new⟩ := of_isTaken d details run
  refine .ite Iff.rfl (fun _ => .refused _) fun free => ?_
  exact deploy_follows d details (new (by simpa using free))

theorem provision_follows (accepts : Bool) :
    Follows Eq (provision (onRedis d details) id request accepts choice now) w
      (provision (plain d details) id request accepts choice now) := by
  unfold provision
  refine .ite Iff.rfl (fun _ => .refused _) fun _ => ?_
  dsimp only
  split
  next plan _ =>
    refine .ask (.findInstance id) rfl fun found same => ?_
    obtain rfl := same
    refine .ite Iff.rfl (fun _ => .refused _) fun _ => .ite Iff.rfl (fun _ => ?_) fun _ => ?_
    · refine .bind (joinable_follows d details _) fun live live' w' place run => ?_
      obtain ⟨rfl, found⟩ := of_joinable d details run
      rcases live with _ | live <;> rcases live' with _ | live'
      · exact deployUnlessTaken_follows d details
      · exact place.elim
      · exact place.elim
      -- Both join the same network, whichever instance each of them found first.
      · obtain ⟨network, task⟩ := place
        obtain ⟨mem, on⟩ := found live' rfl
        dsimp only
        rw [network, task]
        refine .uniform fun uniform => .bind (.onStore _ (.saveInstance ?_)) fun _ _ _ _ _ => .pure rfl
        exact uniform.put fun j mem' same => uniform live' mem j mem' (on.trans same)
    · exact fun b parallel => deployUnlessTaken_follows d details b parallel
  next => exact .throw _

end Provision

theorem isBeingDeployed_follows (i : Instance) :
    Follows Eq (isBeingDeployed (onRedis d details) i) w
      (isBeingDeployed (plain d details) i) := by
  refine .tryCatch (.tell _ fun _ _ => .pure rfl) fun e => ?_
  split
  next => exact .pure rfl
  next => exact .throw _

theorem isBeingDeployed_sparesRecords (i : Instance) :
    SparesRecords (isBeingDeployed (plain d details) i) := by
  refine .tryCatch (.bind (.onDirector _) fun _ => .pure _) fun e => ?_
  split
  next => exact .pure _
  next => exact .throw _

theorem deprovision_follows (id : String) (accepts : Bool) (now : Timestamp) :
    Follows Eq (deprovision (onRedis d details) id accepts now) w
      (deprovision (plain d details) id accepts now) := by
  unfold deprovision
  refine .ite Iff.rfl (fun _ => .refused _) fun _ => ?_
  refine .ask (.findInstance id) rfl fun found same => ?_
  obtain rfl := same
  cases found : w.records.instances.find? (·.id = id) with
  | none => exact .throw _
  | some i =>
    dsimp only
    split
    next => exact .pure rfl
    next =>
      refine .bind (isBeingDeployed_follows d details i) fun deploying _ w₁ same run => ?_
      obtain rfl := same
      have kept := (isBeingDeployed_sparesRecords d details i).run run
      refine .ite Iff.rfl (fun _ => .refused _) fun _ => ?_
      refine .ask (.bindings id) rfl fun bound perm => ?_
      refine .ite (not_congr (eq_nil_iff_of_perm perm)) (fun _ => .refused _) fun _ => ?_
      refine .ask (.instancesOn i.deployment) rfl fun others perm => ?_
      refine .ite (by rw [perm.any_eq]) (fun _ => ?_) fun _ => ?_
      · exact .bind (.onStore _ (.deleteInstance id)) fun _ _ _ _ _ => .pure rfl
      · refine .tell _ fun task x => .uniform fun uniform => ?_
        refine .bind (.onStore _ (.saveInstance (uniform.put fun j mem same => ?_)))
          fun _ _ _ _ _ => .pure rfl
        -- What is saved again stays on its deployment, its network and its first task.
        have recorded : i ∈ w₁.records.instances := kept ▸ List.mem_of_find?_eq_some found
        exact uniform i recorded j mem same

theorem poll_follows (id : String) (operation : Option String) :
    Follows Eq (poll (onRedis d details) id operation) w (poll (plain d details) id operation) := by
  unfold poll
  split
  next token _ =>
    refine .ask (.findInstance id) rfl fun found same => ?_
    obtain rfl := same
    split
    next => exact .tell _ fun _ _ => .pure rfl
    next => exact .throw _
  next => exact .throw _

theorem completeDeprovision_follows (id : String) :
    Follows Eq (completeDeprovision (onRedis d details) id) w
      (completeDeprovision (plain d details) id) := by
  refine .ask (.findInstance id) rfl fun found same => ?_
  obtain rfl := same
  split
  next i _ =>
    refine .bind (.onStore _ (.deleteInstance id)) fun _ _ w' _ _ => ?_
    refine .ask .instances rfl fun others perm => ?_
    exact .ite (by rw [perm.all_eq]) (fun _ => .onPool rfl) fun _ => .pure rfl
  next => exact .pure rfl

theorem lastOperation_follows (id : String) (operation : Option String) :
    Follows Eq (lastOperation (onRedis d details) id operation) w
      (lastOperation (plain d details) id operation) := by
  refine .bind (poll_follows d details id operation) fun polled _ w' same _ => ?_
  obtain rfl := same
  refine .ite Iff.rfl (fun _ => ?_) fun _ => .pure rfl
  exact .bind (completeDeprovision_follows d details id) fun _ _ _ _ _ => .pure rfl

theorem bind_follows (id bindingId : String) (request : BindRequest) (now : Timestamp) :
    Follows Eq (bind (onRedis d details) id bindingId request now) w
      (bind (plain d details) id bindingId request now) := by
  unfold bind
  refine .ite Iff.rfl (fun _ => .refused _) fun _ => ?_
  refine .ask (.findBinding bindingId) rfl fun known same => ?_
  obtain rfl := same
  refine .ite Iff.rfl (fun _ => .refused _) fun absent => ?_
  have new : ∀ b ∈ w.records.bindings, b.id ≠ bindingId := by
    simpa [List.find?_eq_none] using absent
  refine .ask (.findInstance id) rfl fun found same => ?_
  obtain rfl := same
  split
  next i _ =>
    refine .ite Iff.rfl (fun _ => .refused _) fun _ => .tell _ fun task x => ?_
    refine .ite Iff.rfl (fun _ => .refused _) fun _ => .tell _ fun ips x => ?_
    refine .bind (.onStore _ (.saveBinding fun b mem same => ?_)) fun _ _ _ _ _ => .pure rfl
    exact absurd same (new b mem)
  next => exact .throw _

theorem unbind_follows (id bindingId : String) :
    Follows Eq (unbind (onRedis d details) id bindingId) w
      (unbind (plain d details) id bindingId) := by
  refine .ask (.findInstance id) rfl fun found same => ?_
  obtain rfl := same
  refine .ite Iff.rfl (fun _ => .refused _) fun _ => ?_
  refine .ask (.findBinding bindingId) rfl fun known same => ?_
  obtain rfl := same
  split
  next b _ => exact .onStore _ (.deleteBinding b.id)
  next => exact .throw _

theorem unrecorded_follows {known known' : List String} (names : List String)
    (same : ∀ name, name ∈ known ↔ name ∈ known') :
    Follows Eq (unrecorded (onRedis d details) known names) w
      (unrecorded (plain d details) known' names) := by
  induction names generalizing w with
  | nil => exact .pure rfl
  | cons name rest ih =>
    unfold unrecorded
    refine .ite (by simp [same]) (fun _ => ih) fun _ => .tell _ fun network x => ?_
    cases network with
    | none => exact ih
    | some network => exact ih.bind fun others _ _ same _ => same ▸ .pure rfl

theorem refresh_perm (p : NetworkPool) {l l' : List Instance} (perm : l.Perm l')
    (orphans : List (String × String)) : p.refresh l orphans = p.refresh l' orphans := by
  simp only [NetworkPool.refresh, perm.any_eq]

theorem refresh_follows :
    Follows Eq (refresh (onRedis d details)) w (refresh (plain d details)) := by
  refine .ask .instances rfl fun instances perm => .tell _ fun deployments x => ?_
  have same : ∀ name, name ∈ instances.map (·.deployment) ↔
      name ∈ w.records.instances.map (·.deployment) := fun _ => (perm.map _).mem_iff
  refine .bind (unrecorded_follows d details deployments same) fun orphans _ w' same _ => ?_
  exact same ▸ .onPool (refresh_perm _ perm _)

end Operations

section Trace

variable {ρ : Type}

inductive Success
  | token (token : String)
  | deletion (deletion : Deletion)
  | operation (operation : LastOperation)
  | credentials (credentials : Credentials)
  | done

def respond (s : Services δ ρ) (b : Broker δ ρ) : Action → Except BrokerError Success × Broker δ ρ
  | .provision id request accepts choice now =>
    (Success.token <$> provision s id request accepts choice now).exec b
  | .deprovision id accepts now => (Success.deletion <$> deprovision s id accepts now).exec b
  | .lastOperation id operation => (Success.operation <$> lastOperation s id operation).exec b
  | .bind id bindingId request now => (Success.credentials <$> bind s id bindingId request now).exec b
  | .unbind id bindingId => ((fun _ => Success.done) <$> unbind s id bindingId).exec b
  | .refresh => ((fun _ => Success.done) <$> refresh s).exec b

/-- What happens one after the other while the store does not fail. -/
inductive Incident (μ : Type)
  | act (action : Action)
  | restart (networks : List String)
  | move (m : μ)

def undergo (s : Services δ ρ) (move : μ → δ → δ) (b : Broker δ ρ) :
    Incident μ → Except BrokerError Success × Broker δ ρ
  | .act action => respond s b action
  | .restart networks => (.ok .done, start networks b.director b.records)
  | .move m => (.ok .done, { b with director := move m b.director })

def trace (s : Services δ ρ) (move : μ → δ → δ) :
    Broker δ ρ → List (Incident μ) → List (Except BrokerError Success × Broker δ ρ)
  | _, [] => []
  | b, incident :: rest =>
    let after := undergo s move b incident
    after :: trace s move after.2 rest

def SameList (result result' : Except StoreError (List α)) : Prop :=
  ∃ l l', result = .ok l ∧ result' = .ok l' ∧ l.Perm l'

structure SameRecords (s : Server) (m : MemoryStore) : Prop where
  findInstance : ∀ id, ((RedisStore.store.findInstance id).exec s).1 =
    ((MemoryStore.store.findInstance id).exec m).1
  findBinding : ∀ id, ((RedisStore.store.findBinding id).exec s).1 =
    ((MemoryStore.store.findBinding id).exec m).1
  instances : SameList (RedisStore.store.instances.exec s).1 (MemoryStore.store.instances.exec m).1
  bindings : ∀ id, SameList ((RedisStore.store.bindings id).exec s).1
    ((MemoryStore.store.bindings id).exec m).1

structure SameTurn (t : Except BrokerError Success × Broker δ Server)
    (t' : Except BrokerError Success × Broker δ MemoryStore) : Prop where
  answer : t.1 = t'.1
  pool : t.2.pool = t'.2.pool
  director : t.2.director = t'.2.director
  records : SameRecords t.2.records t'.2.records

theorem SameRecords.of_mirrors {s : Server} {m : MemoryStore} (mirrors : Mirrors s m) :
    SameRecords s m where
  findInstance id := ((Answers.findInstance id) s mirrors).1.eq
  findBinding id := ((Answers.findBinding id) s mirrors).1.eq
  instances := by
    have alike := (Answers.instances s mirrors).1
    generalize (RedisStore.store.instances.exec s).1 = result at alike
    cases alike with
    | ok perm => exact ⟨_, _, rfl, rfl, perm⟩
  bindings id := by
    have alike := (Answers.bindings id s mirrors).1
    generalize ((RedisStore.store.bindings id).exec s).1 = result at alike
    cases alike with
    | ok perm => exact ⟨_, _, rfl, rfl, perm⟩

variable {d : Director δ} {details : DirectorDetails} {move : μ → δ → δ}
  {b : Broker δ Server} {w : Broker δ MemoryStore}

theorem respond_parallel (parallel : Parallel b w) (action : Action) :
    (respond (onRedis d details) b action).1 = (respond (plain d details) w action).1 ∧
      Parallel (respond (onRedis d details) b action).2 (respond (plain d details) w action).2 := by
  have replied {α : Type} {x : Step δ Server α} {y : Step δ MemoryStore α} (f : α → Success)
      (follows : Follows Eq x w y) :
      ((f <$> x).exec b).1 = ((f <$> y).exec w).1 ∧ Parallel ((f <$> x).exec b).2 ((f <$> y).exec w).2 := by
    rw [map_eq_pure_bind, map_eq_pure_bind]
    obtain ⟨alike, after⟩ := (follows.bind fun a _ _ same _ => .pure (congrArg f same)) b parallel
    exact ⟨alike.eq, after⟩
  cases action with
  | provision id request accepts choice now =>
    exact replied _ (provision_follows d details accepts)
  | deprovision id accepts now => exact replied _ (deprovision_follows d details id accepts now)
  | lastOperation id operation => exact replied _ (lastOperation_follows d details id operation)
  | bind id bindingId request now =>
    exact replied _ (bind_follows d details id bindingId request now)
  | unbind id bindingId => exact replied _ (unbind_follows d details id bindingId)
  | refresh => exact replied _ (refresh_follows d details)

theorem undergo_parallel (parallel : Parallel b w) (incident : Incident μ) :
    (undergo (onRedis d details) move b incident).1 = (undergo (plain d details) move w incident).1 ∧
      Parallel (undergo (onRedis d details) move b incident).2
        (undergo (plain d details) move w incident).2 := by
  cases incident with
  | act action => exact respond_parallel parallel action
  | restart networks => exact ⟨rfl, rfl, parallel.director, parallel.records⟩
  | move m => exact ⟨rfl, parallel.pool, congrArg (move m) parallel.director, parallel.records⟩

theorem trace_parallel (parallel : Parallel b w) (incidents : List (Incident μ)) :
    List.Forall₂ SameTurn (trace (onRedis d details) move b incidents)
      (trace (plain d details) move w incidents) := by
  induction incidents generalizing b w with
  | nil => exact .nil
  | cons incident rest ih =>
    obtain ⟨answer, after⟩ := undergo_parallel (d := d) parallel incident
    exact .cons ⟨answer, after.pool, after.director, .of_mirrors after.records⟩ (ih after)

/-- From empty stores on, a broker answers the same whether it keeps its records on a Redis server
or in memory, and both stores give the same records after every step. -/
theorem traces_agree (d : Director δ) (details : DirectorDetails) (move : μ → δ → δ)
    (listing : Redis.Listing) (networks : List String) (x : δ) (incidents : List (Incident μ)) :
    List.Forall₂ SameTurn
      (trace (onRedis d details) move (start networks x { listing }) incidents)
      (trace (plain d details) move (start networks x {}) incidents) :=
  trace_parallel ⟨rfl, rfl, .start listing⟩ incidents

end Trace

end LedgerBroker.Broker
