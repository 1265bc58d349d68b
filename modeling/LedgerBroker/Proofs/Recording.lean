import LedgerBroker.Proofs.Run

set_option autoImplicit false

namespace LedgerBroker

namespace Director

variable {δ μ : Type}

def noting {α : Type} (note : List String → List String) (call : Call BrokerError δ α) :
    Call BrokerError (δ × List String) α :=
  call.onPart Prod.fst (fun t x => (x, note t.2)) id

def recording (d : Director δ) : Director (δ × List String) where
  createDeployment m := noting id (d.createDeployment m)
  deleteDeployment name := noting (name :: ·) (d.deleteDeployment name)
  task token := noting id (d.task token)
  vmIps name := noting id (d.vmIps name)
  deployments := noting id d.deployments
  network name := noting id (d.network name)

def chronicle (d : Director δ) : Director (δ × List String) where
  createDeployment m := noting (m.name :: ·) (d.createDeployment m)
  deleteDeployment name := noting id (d.deleteDeployment name)
  task token := noting id (d.task token)
  vmIps name := noting id (d.vmIps name)
  deployments := noting id d.deployments
  network name := noting id (d.network name)

/-- The first Director does what the second does, and notes nothing but what it is told to do. -/
structure Notes (d' : Director (δ × List String)) (d : Director δ) : Prop where
  createDeployment (m : Manifest) :
    ∃ note, d'.createDeployment m = noting note (d.createDeployment m)
  deleteDeployment (name : String) :
    ∃ note, d'.deleteDeployment name = noting note (d.deleteDeployment name)
  task (token : String) : d'.task token = noting id (d.task token)
  vmIps (name : String) : d'.vmIps name = noting id (d.vmIps name)
  deployments : d'.deployments = noting id d.deployments
  network (name : String) : d'.network name = noting id (d.network name)

theorem recording_notes (d : Director δ) : d.recording.Notes d :=
  ⟨fun _ => ⟨_, rfl⟩, fun _ => ⟨_, rfl⟩, fun _ => rfl, fun _ => rfl, rfl, fun _ => rfl⟩

theorem chronicle_notes (d : Director δ) : d.chronicle.Notes d :=
  ⟨fun _ => ⟨_, rfl⟩, fun _ => ⟨_, rfl⟩, fun _ => rfl, fun _ => rfl, rfl, fun _ => rfl⟩

def unnoted (move : μ → δ → δ) (m : μ) (t : δ × List String) : δ × List String :=
  (move m t.1, t.2)

theorem Notes.of_asked {d' : Director (δ × List String)} {d : Director δ} (notes : d'.Notes d)
    {t u : δ × List String} (asked : d'.Asked t u) : u.2 = t.2 := by
  induction asked with
  | nothing => rfl
  | task token _ ih => rw [notes.task]; exact ih
  | vmIps name _ ih => rw [notes.vmIps]; exact ih
  | deployments _ ih => rw [notes.deployments]; exact ih
  | network name _ ih => rw [notes.network]; exact ih

theorem recorded_of_asked {d : Director δ} {t u : δ × List String} (asked : d.recording.Asked t u) :
    u.2 = t.2 := d.recording_notes.of_asked asked

end Director

def Services.over {δ ε ρ : Type} (s : Services δ ρ) (d : Director ε) : Services ε ρ :=
  { director := d, store := s.store, details := s.details }

def Services.recording {δ ρ : Type} (s : Services δ ρ) : Services (δ × List String) ρ :=
  { director := s.director.recording, store := s.store, details := s.details }

namespace Broker

variable {δ ρ μ α β : Type}

def forget (b : Broker (δ × List String) ρ) : Broker δ ρ := ⟨b.pool, b.director.1, b.records⟩

namespace Step

def Forgets (step : Step (δ × List String) ρ α) (step' : Step δ ρ α) : Prop :=
  ∀ b, step'.exec b.forget = ((step.exec b).1, (step.exec b).2.forget)

namespace Forgets

variable {x : Step (δ × List String) ρ α} {x' : Step δ ρ α}

theorem pure (a : α) : Forgets (Pure.pure a : Step (δ × List String) ρ α) (Pure.pure a) :=
  fun _ => rfl

theorem throw (e : BrokerError) :
    Forgets (MonadExcept.throw e : Step (δ × List String) ρ α) (MonadExcept.throw e) :=
  fun _ => rfl

theorem bind {f : α → Step (δ × List String) ρ β} {f' : α → Step δ ρ β} (first : Forgets x x')
    (rest : ∀ a, Forgets (f a) (f' a)) : Forgets (x >>= f) (x' >>= f') := by
  intro b
  rw [Call.exec_bind, Call.exec_bind, first b]
  cases (x.exec b).1 with
  | ok a => exact rest a (x.exec b).2
  | error e => rfl

theorem tryCatch {handle : BrokerError → Step (δ × List String) ρ α}
    {handle' : BrokerError → Step δ ρ α} (first : Forgets x x')
    (rest : ∀ e, Forgets (handle e) (handle' e)) :
    Forgets (MonadExcept.tryCatch x handle) (MonadExcept.tryCatch x' handle') := by
  intro b
  rw [Call.exec_tryCatch, Call.exec_tryCatch, first b]
  cases (x.exec b).1 with
  | ok a => rfl
  | error e => exact rest e (x.exec b).2

theorem ite {c : Prop} [Decidable c] {y : Step (δ × List String) ρ α} {y' : Step δ ρ α}
    (pos : Forgets x x') (neg : Forgets y y') :
    Forgets (if c then x else y) (if c then x' else y') := by
  by_cases h : c
  · rw [if_pos h, if_pos h]; exact pos
  · rw [if_neg h, if_neg h]; exact neg

theorem onStore (rename : String → BrokerError) (call : Call StoreError ρ α) :
    Forgets (Step.onStore rename call : Step (δ × List String) ρ α) (Step.onStore rename call) :=
  fun _ => rfl

theorem onPool (f : NetworkPool → NetworkPool) :
    Forgets (Step.onPool f : Step (δ × List String) ρ Unit) (Step.onPool f) := fun _ => rfl

theorem acquireNetwork (choice : Nat) :
    Forgets (Step.acquireNetwork choice : Step (δ × List String) ρ String)
      (Step.acquireNetwork choice) := by
  intro b
  cases taken : b.pool.acquire choice with
  | error e =>
    rw [exec_acquireNetwork_error taken]
    exact exec_acquireNetwork_error taken
  | ok result =>
    rw [exec_acquireNetwork_ok taken]
    exact exec_acquireNetwork_ok taken

theorem onDirector {call' : Call BrokerError (δ × List String) α} {call : Call BrokerError δ α}
    (noted : ∃ note, call' = Director.noting note call) :
    Forgets (Step.onDirector call' : Step (δ × List String) ρ α) (Step.onDirector call) := by
  obtain ⟨note, rfl⟩ := noted
  intro b
  rw [exec_onDirector, exec_onDirector, Director.noting, Call.exec_onPart, Call.mapError_id]
  rfl

theorem orElseUndo (first : Forgets x x') (undo : NetworkPool → NetworkPool) :
    Forgets (Step.orElseUndo x undo) (Step.orElseUndo x' undo) :=
  first.tryCatch fun e => (onPool undo).bind fun _ => .throw e

-- After a refusal nothing is done, so that what would follow need not be the same.
theorem refused (e : BrokerError) (f : α → Step (δ × List String) ρ β) (f' : α → Step δ ρ β) :
    Forgets (MonadExcept.throw e >>= f) (MonadExcept.throw e >>= f') := fun _ => rfl

end Forgets

end Step

section Operations

open Step

variable (s : Services δ ρ) {d' : Director (δ × List String)} (notes : d'.Notes s.director)

theorem joinable_forgets (deployment : String) :
    Forgets (joinable (s.over d') deployment) (joinable s deployment) := by
  refine .bind (.onStore _ _) fun existing => .ite (.pure none) ?_
  split
  next => exact .throw _
  next live _ => exact .pure _

theorem isTaken_forgets (deployment : String) :
    Forgets (isTaken (s.over d') deployment) (isTaken s deployment) := by
  -- What is looked at in the broker itself is its pool, which is the same.
  have rest (b : Broker (δ × List String) ρ) := Forgets.ite (c := b.pool.isOrphaned deployment)
    (.pure true) ((Forgets.onStore (δ := δ) (ρ := ρ) BrokerError.dbRead
      (s.store.instancesOn deployment)).bind fun taken => .pure (decide (taken ≠ [])))
  exact fun b => rest b b

include notes

theorem deploy_forgets (id : String) (plan : Plan) (request : Request) (choice : Nat)
    (now : Timestamp) :
    Forgets (deploy (s.over d') id plan request choice now)
      (deploy s id plan request choice now) := by
  refine .bind (.acquireNetwork choice) fun network => ?_
  refine .bind (.orElseUndo (.onDirector (notes.createDeployment _)) _) fun task => ?_
  exact .bind (.orElseUndo (.onStore _ _) _) fun _ => .pure _

theorem deployUnlessTaken_forgets (id : String) (plan : Plan) (request : Request) (choice : Nat)
    (now : Timestamp) :
    Forgets
      (do
        if ← isTaken (s.over d') (plan.deployment id) then throw (.instanceAlreadyExists id)
        deploy (s.over d') id plan request choice now)
      (do
        if ← isTaken s (plan.deployment id) then throw (.instanceAlreadyExists id)
        deploy s id plan request choice now) :=
  (isTaken_forgets s _).bind fun _ => .ite (.refused _ _ _) (deploy_forgets s notes _ _ _ _ _)

theorem provision_forgets (id : String) (request : Request) (accepts : Bool) (choice : Nat)
    (now : Timestamp) :
    Forgets (provision (s.over d') id request accepts choice now)
      (provision s id request accepts choice now) := by
  unfold provision
  refine .ite (.refused _ _ _) ?_
  dsimp only
  split
  next plan _ =>
    refine .bind (.onStore _ _) fun found => .ite (.refused _ _ _) (.ite ?_ ?_)
    · refine .bind (joinable_forgets s _) fun live => ?_
      cases live with
      | none => exact deployUnlessTaken_forgets s notes id plan request choice now
      | some live => exact .bind (.onStore _ _) fun _ => .pure _
    · exact fun b => deployUnlessTaken_forgets s notes id plan request choice now b
  next => exact .throw _

theorem isBeingDeployed_forgets (i : Instance) :
    Forgets (isBeingDeployed (s.over d') i) (isBeingDeployed s i) := by
  refine .tryCatch (.bind (.onDirector ⟨_, notes.task _⟩) fun _ => .pure _) fun e => ?_
  split
  next => exact .pure _
  next => exact .throw _

theorem deprovision_forgets (id : String) (accepts : Bool) (now : Timestamp) :
    Forgets (deprovision (s.over d') id accepts now) (deprovision s id accepts now) := by
  unfold deprovision
  refine .ite (.refused _ _ _) (.bind (.onStore _ _) fun found => ?_)
  split
  next i =>
    split
    next => exact .pure _
    next =>
      refine .bind (isBeingDeployed_forgets s notes i) fun _ => .ite (.refused _ _ _) ?_
      refine .bind (.onStore _ _) fun _ => .ite (.refused _ _ _) ?_
      refine .bind (.onStore _ _) fun _ => .ite (.bind (.onStore _ _) fun _ => .pure _) ?_
      exact .bind (.onDirector (notes.deleteDeployment _)) fun _ =>
        .bind (.onStore _ _) fun _ => .pure _
  next => exact .throw _

theorem poll_forgets (id : String) (operation : Option String) :
    Forgets (poll (s.over d') id operation) (poll s id operation) := by
  unfold poll
  split
  next token _ =>
    refine .bind (.onStore _ _) fun found => ?_
    split
    next => exact .bind (.onDirector ⟨_, notes.task _⟩) fun _ => .pure _
    next => exact .throw _
  next => exact .throw _

omit notes in
theorem completeDeprovision_forgets (id : String) :
    Forgets (completeDeprovision (s.over d') id) (completeDeprovision s id) := by
  refine .bind (.onStore _ _) fun found => ?_
  split
  next =>
    refine .bind (.onStore _ _) fun _ => .bind (.onStore _ _) fun _ => ?_
    exact .ite (.onPool _) (.pure _)
  next => exact .pure _

theorem lastOperation_forgets (id : String) (operation : Option String) :
    Forgets (lastOperation (s.over d') id operation) (lastOperation s id operation) :=
  (poll_forgets s notes id operation).bind fun _ =>
    .ite ((completeDeprovision_forgets s id).bind fun _ => .pure _) (.pure _)

theorem bind_forgets (id bindingId : String) (request : BindRequest) (now : Timestamp) :
    Forgets (bind (s.over d') id bindingId request now) (bind s id bindingId request now) := by
  unfold bind
  refine .ite (.refused _ _ _) (.bind (.onStore _ _) fun _ => .ite (.refused _ _ _) ?_)
  refine .bind (.onStore _ _) fun found => ?_
  split
  next =>
    refine .ite (.refused _ _ _)
      (.bind (.onDirector ⟨_, notes.task _⟩) fun _ => .ite (.refused _ _ _) ?_)
    exact .bind (.onDirector ⟨_, notes.vmIps _⟩) fun _ => .bind (.onStore _ _) fun _ => .pure _
  next => exact .throw _

omit notes in
theorem unbind_forgets (id bindingId : String) :
    Forgets (unbind (s.over d') id bindingId) (unbind s id bindingId) := by
  unfold unbind
  refine .bind (.onStore _ _) fun _ => .ite (.refused _ _ _) (.bind (.onStore _ _) fun _ => ?_)
  split
  next => exact .onStore _ _
  next => exact .throw _

theorem unrecorded_forgets (known names : List String) :
    Forgets (unrecorded (s.over d') known names) (unrecorded s known names) := by
  induction names with
  | nil => exact .pure _
  | cons name rest ih =>
    unfold unrecorded
    refine .ite ih (.bind (.onDirector ⟨_, notes.network _⟩) fun network => ?_)
    cases network with
    | none => exact ih
    | some network => exact ih.bind fun _ => .pure _

theorem refresh_forgets : Forgets (refresh (s.over d')) (refresh s) := by
  refine .bind (.onStore _ _) fun _ => .bind (.onDirector ⟨_, notes.deployments⟩) fun _ => ?_
  exact (unrecorded_forgets s notes _ _).bind fun _ => .onPool _

end Operations

section Run

open Step (Forgets)

variable (s : Services δ (Store.Outages MemoryStore)) {d' : Director (δ × List String)}
  (notes : d'.Notes s.director) (move : μ → δ → δ)
  (b : Broker (δ × List String) (Store.Outages MemoryStore))

include notes

theorem forget_perform (action : Action) :
    (perform (s.over d') b action).forget = perform s b.forget action := by
  have same {α : Type} {x : Step (δ × List String) (Store.Outages MemoryStore) α}
      {x' : Step δ (Store.Outages MemoryStore) α} (forgets : Forgets x x') :
      (x.exec b).2.forget = (x'.exec b.forget).2 := by rw [forgets b]
  cases action with
  | provision id request accepts choice now =>
    exact same (provision_forgets s notes id request accepts choice now)
  | deprovision id accepts now => exact same (deprovision_forgets s notes id accepts now)
  | lastOperation id operation => exact same (lastOperation_forgets s notes id operation)
  | bind id bindingId request now => exact same (bind_forgets s notes id bindingId request now)
  | unbind id bindingId => exact same (unbind_forgets s id bindingId)
  | refresh => exact same (refresh_forgets s notes)

theorem forget_happen (e : Event μ) :
    (happen (s.over d') (Director.unnoted move) b e).forget = happen s move b.forget e := by
  cases e with
  | act action => exact forget_perform s notes b action
  | restart networks =>
    have same : (refresh s).exec (start networks b.forget.director b.forget.records) =
        (((refresh (s.over d')).exec (start networks b.director b.records)).1,
          ((refresh (s.over d')).exec (start networks b.director b.records)).2.forget) :=
      refresh_forgets s notes (start networks b.director b.records)
    simp only [happen, same]
    generalize (refresh (s.over d')).exec (start networks b.director b.records) = found
    obtain ⟨_ | _, b'⟩ := found <;> rfl
  | move | storeBreaks | storeMends => rfl

theorem forget_notes (events : List (Event μ)) :
    (run (s.over d') (Director.unnoted move) b events).forget = run s move b.forget events := by
  induction events generalizing b with
  | nil => rfl
  | cons e rest ih =>
    have first := forget_happen s notes move b e
    exact (ih _).trans (congrArg (run s move · rest) first)

omit notes in
theorem forget_run (events : List (Event μ)) :
    (run s.recording (Director.unnoted move) b events).forget = run s move b.forget events :=
  forget_notes s s.director.recording_notes move b events

end Run

end Broker

end LedgerBroker
