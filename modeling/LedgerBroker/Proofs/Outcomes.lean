import LedgerBroker.Broker.Bindings
import LedgerBroker.Broker.Deprovisioning
import LedgerBroker.Broker.Provisioning
import LedgerBroker.Proofs.Steps

set_option autoImplicit false

namespace LedgerBroker

/-- What becomes of a Director that is asked things and is not told to do any. -/
inductive Director.Asked {δ : Type} (d : Director δ) : δ → δ → Prop
  | nothing (x : δ) : Asked d x x
  | task {x y : δ} (token : String) : Asked d x y → Asked d x ((d.task token).exec y).2
  | vmIps {x y : δ} (name : String) : Asked d x y → Asked d x ((d.vmIps name).exec y).2
  | deployments {x y : δ} : Asked d x y → Asked d x (d.deployments.exec y).2
  | network {x y : δ} (name : String) : Asked d x y → Asked d x ((d.network name).exec y).2

theorem Director.Asked.trans {δ : Type} {d : Director δ} {x y z : δ} (h : d.Asked x y)
    (h' : d.Asked y z) : d.Asked x z := by
  induction h' with
  | nothing => exact h
  | task token _ ih => exact ih.task token
  | vmIps name _ ih => exact ih.vmIps name
  | deployments _ ih => exact ih.deployments
  | network name _ ih => exact ih.network name

namespace Broker

open Step

variable {δ : Type} (d : Director δ) (details : DirectorDetails) (may : Store.CallKind → Prop)
  (w : Broker δ MemoryStore)

structure Placement (id : String) (request : Request) (choice : Nat) where
  plan : Plan
  network : String
  pool : NetworkPool
  resolved : Plan.resolve? request.serviceId request.planId = some plan
  id_new : ∀ i ∈ w.records.instances, i.id ≠ id
  deployment_new : ∀ i ∈ w.records.instances, i.deployment ≠ plan.deployment id
  not_orphaned : w.pool.isOrphaned (plan.deployment id) = false
  acquired : w.pool.acquire choice = .ok (network, pool)

namespace Placement

variable {w} {id : String} {request : Request} {choice : Nat} (p : Placement w id request choice)

def deployment : String := p.plan.deployment id

def manifest : Manifest :=
  Manifest.render p.deployment p.network p.plan.isPermissioned details

def instance_ (task : Task) (now : Timestamp) : Instance :=
  Instance.new id p.deployment p.network task.token request now

end Placement

inductive Provisioned (id : String) (request : Request) (choice : Nat) (now : Timestamp) :
    Except BrokerError String → Broker δ MemoryStore → Prop
  | refused (e : BrokerError) : Provisioned id request choice now (.error e) w
  | joined (plan : Plan) (live : Instance)
      (resolved : Plan.resolve? request.serviceId request.planId = some plan)
      (shared : plan.isShared = true) (id_new : ∀ i ∈ w.records.instances, i.id ≠ id)
      (recorded : live ∈ w.records.instances) (same : live.deployment = plan.deployment id)
      (stays : live.isDeprovisioning = false) :
      Provisioned id request choice now (.ok live.provisionTask)
        { w with
          records := w.records.putInstance
            (Instance.new id (plan.deployment id) live.network live.provisionTask request now) }
  | notStarted (p : Placement w id request choice) (e : BrokerError)
      (failed : ((d.createDeployment (p.manifest details)).exec w.director).1 = .error e) :
      Provisioned id request choice now (.error e) {
        pool := p.pool.release p.network
        director := ((d.createDeployment (p.manifest details)).exec w.director).2
        records := w.records }
  | unrecorded (p : Placement w id request choice) (task : Task) (e : BrokerError)
      (created : ((d.createDeployment (p.manifest details)).exec w.director).1 = .ok task)
      (unsaved : may .saveInstance ∨ (p.instance_ task now).validate ≠ .ok ()) :
      Provisioned id request choice now (.error e) {
        pool := p.pool.quarantine p.deployment p.network
        director := ((d.createDeployment (p.manifest details)).exec w.director).2
        records := w.records }
  | recorded (p : Placement w id request choice) (task : Task)
      (created : ((d.createDeployment (p.manifest details)).exec w.director).1 = .ok task) :
      Provisioned id request choice now (.ok task.token) {
        pool := p.pool
        director := ((d.createDeployment (p.manifest details)).exec w.director).2
        records := w.records.putInstance (p.instance_ task now) }

structure Departure (id : String) where
  i : Instance
  found : w.records.instances.find? (·.id = id) = some i
  stays : i.deprovisionTask = none
  unbound : ∀ b ∈ w.records.bindings, b.instanceId ≠ id
  alone : ∀ j ∈ w.records.instances, j.deployment = i.deployment → j.id = i.id

inductive Deprovisioned (id : String) (now : Timestamp) :
    Except BrokerError Deletion → Broker δ MemoryStore → Prop
  | unchanged (result : Except BrokerError Deletion) (x : δ) (asked : d.Asked w.director x) :
      Deprovisioned id now result { w with director := x }
  | left (i other : Instance) (x : δ) (asked : d.Asked w.director x)
      (found : w.records.instances.find? (·.id = id) = some i) (stays : i.deprovisionTask = none)
      (unbound : ∀ b ∈ w.records.bindings, b.instanceId ≠ id)
      (recorded : other ∈ w.records.instances) (another : other.id ≠ i.id)
      (same : other.deployment = i.deployment) :
      Deprovisioned id now (.ok .removed)
        { w with director := x, records := w.records.removeInstance id }
  | notDeleted (p : Departure w id) (x : δ) (asked : d.Asked w.director x) (e : BrokerError)
      (failed : ((d.deleteDeployment p.i.deployment).exec x).1 = .error e) :
      Deprovisioned id now (.error e)
        { w with director := ((d.deleteDeployment p.i.deployment).exec x).2 }
  | unmarked (p : Departure w id) (x : δ) (asked : d.Asked w.director x) (task : Task)
      (deleted : ((d.deleteDeployment p.i.deployment).exec x).1 = .ok task) (e : BrokerError)
      (unsaved : may .saveInstance ∨ (p.i.markDeprovisioning task.token now).validate ≠ .ok ()) :
      Deprovisioned id now (.error e)
        { w with director := ((d.deleteDeployment p.i.deployment).exec x).2 }
  | marked (p : Departure w id) (x : δ) (asked : d.Asked w.director x) (task : Task)
      (deleted : ((d.deleteDeployment p.i.deployment).exec x).1 = .ok task) :
      Deprovisioned id now (.ok (.deleting task.token)) {
        pool := w.pool
        director := ((d.deleteDeployment p.i.deployment).exec x).2
        records := w.records.putInstance (p.i.markDeprovisioning task.token now) }

inductive Completed (id : String) : Except BrokerError Unit → Broker δ MemoryStore → Prop
  | failed (e : BrokerError) : Completed id (.error e) w
  | absent (none : w.records.instances.find? (·.id = id) = none) : Completed id (.ok ()) w
  | stranded (i : Instance) (e : BrokerError) (breaks : may .instances)
      (found : w.records.instances.find? (·.id = id) = some i) :
      Completed id (.error e) { w with records := w.records.removeInstance id }
  | shared (i other : Instance) (found : w.records.instances.find? (·.id = id) = some i)
      (left : other ∈ (w.records.removeInstance id).instances)
      (same : other.network = i.network) :
      Completed id (.ok ()) { w with records := w.records.removeInstance id }
  | freed (i : Instance) (found : w.records.instances.find? (·.id = id) = some i)
      (unused : ∀ j ∈ (w.records.removeInstance id).instances, j.network ≠ i.network) :
      Completed id (.ok ())
        { w with pool := w.pool.release i.network, records := w.records.removeInstance id }

def Polled.of (i : Instance) (token : String) (task : Task) : Polled :=
  let kind := if i.deprovisionTask = some token then .deprovision else .provision
  { answer := .ofTaskState kind task.state
    completesDeletion := kind = .deprovision ∧ task.state.isDone }

inductive Looked (id : String) (operation : Option String) :
    Except BrokerError Polled → Broker δ MemoryStore → Prop
  | failed (e : BrokerError) (x : δ) (asked : d.Asked w.director x) :
      Looked id operation (.error e) { w with director := x }
  | found (token : String) (i : Instance) (task : Task) (asks : operation = some token)
      (found : w.records.instances.find? (·.id = id) = some i)
      (seen : ((d.task token).exec w.director).1 = .ok task) :
      Looked id operation (.ok (Polled.of i token task))
        { w with director := ((d.task token).exec w.director).2 }

theorem Looked.asked {d : Director δ} {w w' : Broker δ MemoryStore} {id : String}
    {operation : Option String} {result : Except BrokerError Polled}
    (h : Looked d w id operation result w') :
    ∃ x, d.Asked w.director x ∧ w' = { w with director := x } := by
  cases h with
  | failed e x asked => exact ⟨x, asked, rfl⟩
  | found token => exact ⟨_, .task token (.nothing _), rfl⟩

theorem Looked.deletion {d : Director δ} {w w' : Broker δ MemoryStore} {id : String}
    {operation : Option String} {polled : Polled} (h : Looked d w id operation (.ok polled) w')
    (completes : polled.completesDeletion = true) :
    ∃ token i task, operation = some token ∧
      w.records.instances.find? (·.id = id) = some i ∧ i.deprovisionTask = some token ∧
      ((d.task token).exec w.director).1 = .ok task ∧ task.state.isDone = true := by
  cases h with
  | found token i task asks found seen =>
    -- A deletion is completed only for the token that the record itself waits with.
    have both := of_decide_eq_true completes
    refine ⟨token, i, task, asks, found, ?_, seen, both.2⟩
    by_cases own : i.deprovisionTask = some token
    · exact own
    · rw [if_neg own] at both
      exact nomatch both.1

theorem Looked.going {d : Director δ} {w w' : Broker δ MemoryStore} {id : String}
    {operation : Option String} {polled : Polled} (h : Looked d w id operation (.ok polled) w')
    (completes : polled.completesDeletion = true) :
    ∃ x, d.Asked w.director x ∧ w' = { w with director := x } ∧
      ∀ i, w.records.instances.find? (·.id = id) = some i → i.deprovisionTask ≠ none := by
  obtain ⟨x, asked, same⟩ := h.asked
  obtain ⟨token, i, task, _, found, going, _⟩ := h.deletion completes
  refine ⟨x, asked, same, fun j found' stays => ?_⟩
  obtain rfl : i = j := Option.some.inj (found.symm.trans found')
  exact nomatch going.symm.trans stays

inductive Bound (id bindingId : String) (now : Timestamp) :
    Except BrokerError Credentials → Broker δ MemoryStore → Prop
  | refused (e : BrokerError) (x : δ) (asked : d.Asked w.director x) :
      Bound id bindingId now (.error e) { w with director := x }
  | bound (i : Instance) (task : Task) (ips : VmIps) (x : δ) (asked : d.Asked w.director x)
      (found : w.records.instances.find? (·.id = id) = some i) (stays : i.deprovisionTask = none)
      (deployed : ((d.task i.provisionTask).exec w.director).1 = .ok task)
      (done : task.state.isDone = true)
      (binding_new : ∀ b ∈ w.records.bindings, b.id ≠ bindingId) :
      Bound id bindingId now (.ok (.ofAddresses (ips.get "peer")))
        { w with director := x, records := w.records.putBinding ⟨bindingId, id, now⟩ }

inductive Unbound (id bindingId : String) :
    Except BrokerError Unit → Broker δ MemoryStore → Prop
  | refused (e : BrokerError) : Unbound id bindingId (.error e) w
  | unbound (b : Binding) (found : w.records.bindings.find? (·.id = bindingId) = some b)
      (own : b.instanceId = id) :
      Unbound id bindingId (.ok ()) { w with records := w.records.removeBinding b.id }

structure Survey (recorded names : List String) (x : δ) (orphans : List (String × String)) :
    Prop where
  sound : ∀ o ∈ orphans, o.1 ∈ names ∧ o.1 ∉ recorded ∧
    ∃ y, d.Asked x y ∧ ((d.network o.1).exec y).1 = .ok (some o.2)
  complete : ∀ name ∈ names, name ∉ recorded →
    ∃ y, d.Asked x y ∧ (((d.network name).exec y).1 = .ok none ∨ ∃ n, (name, n) ∈ orphans)

inductive Refreshed : Except BrokerError Unit → Broker δ MemoryStore → Prop
  | failed (e : BrokerError) (x : δ) (asked : d.Asked w.director x) :
      Refreshed (.error e) { w with director := x }
  | refreshed (names : List String) (orphans : List (String × String)) (x : δ)
      (asked : d.Asked w.director x) (listed : (d.deployments.exec w.director).1 = .ok names)
      (survey : Survey d (w.records.instances.map (·.deployment)) names
        (d.deployments.exec w.director).2 orphans) :
      Refreshed (.ok ()) {
        pool := w.pool.refresh w.records.instances orphans
        director := x
        records := w.records }

section Yields

variable {d details may w}

def Joins (w : Broker δ MemoryStore) (deployment : String) :
    Except BrokerError (Option Instance) → Prop
  | .error _ => True
  | .ok none => ∀ i ∈ w.records.instances, i.deployment ≠ deployment
  | .ok (some live) => live ∈ w.records.instances ∧ live.deployment = deployment ∧
      live.isDeprovisioning = false

theorem joinable_yields (deployment : String) :
    Yields may (joinable (inMemory d details) deployment) w
      (fun r w' => w' = w ∧ Joins w deployment r) := by
  unfold joinable
  refine .bind (.instancesOn (fun _ e => ⟨rfl, trivial⟩) ?_)
  refine .ite (fun none => .pure ⟨rfl, ?_⟩) (fun _ => ?_)
  · simpa [Joins, List.filter_eq_nil_iff] using none
  · split
    next => exact .throw ⟨rfl, trivial⟩
    next live found =>
      refine .pure ⟨rfl, ?_⟩
      have mem := List.mem_filter.mp (List.mem_of_find?_eq_some found)
      have stays := List.find?_some found
      exact ⟨mem.1, by simpa using mem.2, by simpa using stays⟩

theorem isTaken_yields (deployment : String) :
    Yields may (isTaken (inMemory d details) deployment) w (fun r w' => w' = w ∧
      (r = .ok false → w.pool.isOrphaned deployment = false ∧
        ∀ i ∈ w.records.instances, i.deployment ≠ deployment)) := by
  unfold isTaken
  refine .get fun b at_ => ?_
  subst at_
  refine .ite (fun _ => .pure ⟨rfl, nofun⟩) (fun free => ?_)
  refine .bind (.instancesOn (fun _ e => ⟨rfl, nofun⟩) (.pure ⟨rfl, fun taken => ⟨?_, ?_⟩⟩))
  · simpa using free
  · simpa [List.filter_eq_nil_iff] using taken

section Provision

variable {id : String} {request : Request} {choice : Nat} {now : Timestamp} {plan : Plan}

theorem deploy_yields (resolved : Plan.resolve? request.serviceId request.planId = some plan)
    (id_new : ∀ i ∈ w.records.instances, i.id ≠ id)
    (deployment_new : ∀ i ∈ w.records.instances, i.deployment ≠ plan.deployment id)
    (not_orphaned : w.pool.isOrphaned (plan.deployment id) = false) :
    Yields may (deploy (inMemory d details) id plan request choice now) w
      (Provisioned d details may w id request choice now) := by
  unfold deploy
  refine .bind (.acquireNetwork (fun e _ => .refused e) (fun network pool acquired => ?_))
  let p : Placement w id request choice :=
    ⟨plan, network, pool, resolved, id_new, deployment_new, not_orphaned, acquired⟩
  refine .bind (.tryCatch (.onDirector (fun e failed => ?_) (fun task created => ?_)))
  · exact .bind (.onPool (.throw (.notStarted p e failed)))
  · refine .bind (.tryCatch (.saveInstance (fun unsaved e => ?_) ?_))
    · exact .bind (.onPool (.throw (.unrecorded p task e created unsaved)))
    · exact .pure (.recorded p task created)

theorem deployUnlessTaken_yields
    (resolved : Plan.resolve? request.serviceId request.planId = some plan)
    (id_new : ∀ i ∈ w.records.instances, i.id ≠ id) :
    Yields may
      (do
        if ← isTaken (inMemory d details) (plan.deployment id) then
          throw (.instanceAlreadyExists id)
        deploy (inMemory d details) id plan request choice now)
      w (Provisioned d details may w id request choice now) := by
  refine .bind ((isTaken_yields _).mono ?_)
  rintro (e | taken) _ ⟨rfl, free⟩
  · exact .refused e
  · refine .ite (fun _ => .bind (.throw (.refused _))) (fun available => ?_)
    -- Only here are both sides of the check known: no orphan has the name, and no record.
    obtain ⟨not_orphaned, deployment_new⟩ := free (by simpa using available)
    exact deploy_yields resolved id_new deployment_new not_orphaned

theorem provision_yields (id : String) (request : Request) (accepts : Bool) (choice : Nat)
    (now : Timestamp) :
    Yields may (provision (inMemory d details) id request accepts choice now) w
      (Provisioned d details may w id request choice now) := by
  unfold provision
  refine .ite (fun _ => .bind (.throw (.refused _))) (fun _ => ?_)
  dsimp only
  split
  next plan resolved =>
    refine .bind (.findInstance (fun _ e => .refused e) ?_)
    refine .ite (fun _ => .bind (.throw (.refused _))) (fun absent => ?_)
    have id_new : ∀ i ∈ w.records.instances, i.id ≠ id := by
      simpa [List.find?_eq_none] using absent
    refine .ite (fun shared => .bind ((joinable_yields _).mono ?_)) (fun _ => ?_)
    · rintro (e | _ | live) _ ⟨rfl, joins⟩
      · exact .refused e
      · exact deployUnlessTaken_yields resolved id_new
      · refine .bind (.saveInstance (fun _ e => .refused e) (.pure ?_))
        exact .joined plan live resolved shared id_new joins.1 joins.2.1 joins.2.2
    · exact .bind (.pure (deployUnlessTaken_yields resolved id_new))
  next => exact .throw (.refused _)

end Provision

theorem isBeingDeployed_yields (i : Instance) :
    Yields may (isBeingDeployed (inMemory d details) i) w (fun _ w' =>
      w' = { w with director := ((d.task i.provisionTask).exec w.director).2 }) := by
  unfold isBeingDeployed
  refine .tryCatch (.bind (.onDirector (fun e _ => ?_) (fun task _ => .pure rfl)))
  simp only [Before, Handled]
  split
  next => exact .pure rfl
  next => exact .throw rfl

theorem deprovision_yields (id : String) (accepts : Bool) (now : Timestamp) :
    Yields may (deprovision (inMemory d details) id accepts now) w
      (Deprovisioned d may w id now) := by
  have still := Director.Asked.nothing (d := d) w.director
  unfold deprovision
  refine .ite (fun _ => .bind (.throw (.unchanged _ _ still))) (fun _ => ?_)
  refine .bind (.findInstance (fun _ e => .unchanged _ _ still) ?_)
  simp only [Before]
  split
  next i found =>
    split
    next => exact .pure (.unchanged _ _ still)
    next stays =>
      have stays : i.deprovisionTask = none := by
        cases h : i.deprovisionTask with
        | none => rfl
        | some token => exact absurd h (stays token)
      have asked := still.task i.provisionTask
      refine .bind ((isBeingDeployed_yields i).mono ?_)
      rintro (e | _) _ rfl
      · exact .unchanged _ _ asked
      · refine .ite (fun _ => .bind (.throw (.unchanged _ _ asked))) (fun _ => ?_)
        refine .bind (.bindings (fun _ e => .unchanged _ _ asked) ?_)
        refine .ite (fun _ => .bind (.throw (.unchanged _ _ asked))) (fun unbound => ?_)
        have unbound : ∀ b ∈ w.records.bindings, b.instanceId ≠ id := by
          simpa [List.filter_eq_nil_iff] using unbound
        refine .bind (.instancesOn (fun _ e => .unchanged _ _ asked) ?_)
        refine .ite (fun shared => ?_) (fun alone => ?_)
        · refine .bind (.deleteInstance (fun _ e => .unchanged _ _ asked) (.pure ?_))
          -- The deployment stays with the instance that is left on it.
          obtain ⟨other, mem, another⟩ := List.any_eq_true.mp shared
          have mem := List.mem_filter.mp mem
          exact .left i other _ asked found stays unbound mem.1 (by simpa using another)
            (by simpa using mem.2)
        · let p : Departure w id := ⟨i, found, stays, unbound, by simpa using alone⟩
          refine .bind (.onDirector (fun e failed => ?_) (fun task deleted => ?_))
          · exact .notDeleted p _ asked e failed
          · refine .bind (.saveInstance (fun unsaved e => ?_) (.pure ?_))
            · exact .unmarked p _ asked task deleted e unsaved
            · exact .marked p _ asked task deleted
  next => exact .throw (.unchanged _ _ still)

theorem completeDeprovision_yields (id : String) :
    Yields may (completeDeprovision (inMemory d details) id) w (Completed may w id) := by
  unfold completeDeprovision
  refine .bind (.findInstance (fun _ e => .failed e) ?_)
  simp only [Before]
  split
  next i found =>
    refine .bind (.deleteInstance (fun _ e => .failed e) ?_)
    refine .bind (.instances (fun breaks e => .stranded i e breaks found) ?_)
    refine .ite (fun unused => .onPool (.freed i found ?_)) (fun used => .pure ?_)
    · simpa using unused
    · obtain ⟨other, left, same⟩ := List.all_eq_false.mp (Bool.eq_false_iff.mpr used)
      exact .shared i other found left (by simpa using same)
  next absent =>
    refine .pure (.absent ?_)
    cases h : w.records.instances.find? (·.id = id) with
    | none => rfl
    | some i => exact absurd h (absent i)

theorem poll_yields (id : String) (operation : Option String) :
    Yields may (poll (inMemory d details) id operation) w (Looked d w id operation) := by
  have still := Director.Asked.nothing (d := d) w.director
  unfold poll
  split
  next token asks =>
    refine .bind (.findInstance (fun _ e => .failed _ _ still) ?_)
    simp only [Before]
    split
    next i found =>
      refine .bind (.onDirector (fun e _ => .failed _ _ (still.task token)) (fun task seen => ?_))
      refine .pure (.found token i task ?_ found seen)
      exact (Option.filter_eq_some_iff.mp asks).1
    next => exact .throw (.failed _ _ still)
  next => exact .throw (.failed _ _ still)

theorem bind_yields (id bindingId : String) (request : BindRequest) (now : Timestamp) :
    Yields may (bind (inMemory d details) id bindingId request now) w
      (Bound d w id bindingId now) := by
  have still := Director.Asked.nothing (d := d) w.director
  unfold bind
  refine .ite (fun _ => .bind (.throw (.refused _ _ still))) (fun _ => ?_)
  refine .bind (.findBinding (fun _ e => .refused _ _ still) ?_)
  refine .ite (fun _ => .bind (.throw (.refused _ _ still))) (fun absent => ?_)
  have binding_new : ∀ b ∈ w.records.bindings, b.id ≠ bindingId := by
    simpa [List.find?_eq_none] using absent
  refine .bind (.findInstance (fun _ e => .refused _ _ still) ?_)
  simp only [Before]
  split
  next i found =>
    refine .ite (fun _ => .bind (.throw (.refused _ _ still))) (fun stays => ?_)
    have asked := still.task i.provisionTask
    refine .bind (.onDirector (fun e _ => .refused _ _ asked) (fun task deployed => ?_))
    refine .ite (fun _ => .bind (.throw (.refused _ _ asked))) (fun done => ?_)
    have asked := asked.vmIps i.deployment
    refine .bind (.onDirector (fun e _ => .refused _ _ asked) (fun ips _ => ?_))
    refine .bind (.saveBinding (fun _ e => .refused _ _ asked) (.pure ?_))
    refine .bound i task ips _ asked found ?_ deployed (by simpa using done) binding_new
    simpa [Instance.isDeprovisioning] using stays
  next => exact .throw (.refused _ _ still)

theorem unbind_yields (id bindingId : String) :
    Yields may (unbind (inMemory d details) id bindingId) w (Unbound w id bindingId) := by
  unfold unbind
  refine .bind (.findInstance (fun _ e => .refused e) ?_)
  refine .ite (fun _ => .bind (.throw (.refused _))) (fun _ => ?_)
  refine .bind (.findBinding (fun _ e => .refused e) ?_)
  simp only [Before]
  split
  next b found =>
    obtain ⟨found, own⟩ := Option.filter_eq_some_iff.mp found
    exact .deleteBinding (fun _ e => .refused e) (.unbound b found (by simpa using own))
  next => exact .throw (.refused _)

namespace Survey

variable {recorded names : List String} {x y : δ} {orphans : List (String × String)} {name : String}

theorem nil : Survey d recorded [] x [] := ⟨nofun, nofun⟩

theorem cons (asked : d.Asked x y) (rest : Survey d recorded names y orphans)
    (settled : name ∈ recorded ∨ ((d.network name).exec x).1 = .ok none ∨
      ∃ n, (name, n) ∈ orphans) :
    Survey d recorded (name :: names) x orphans := by
  constructor
  · intro o mem
    obtain ⟨listed, unrecorded, z, asked', answer⟩ := rest.sound o mem
    exact ⟨List.mem_cons_of_mem _ listed, unrecorded, z, asked.trans asked', answer⟩
  · intro name' mem unrecorded
    rcases List.mem_cons.mp mem with rfl | mem
    · rcases settled with recorded | absent | known
      · exact absurd recorded unrecorded
      · exact ⟨x, .nothing x, .inl absent⟩
      · exact ⟨x, .nothing x, .inr known⟩
    · obtain ⟨z, asked', answer⟩ := rest.complete name' mem unrecorded
      exact ⟨z, asked.trans asked', answer⟩

theorem add {network : String} (rest : Survey d recorded names y orphans)
    (asked : d.Asked x y) (unrecorded : name ∉ recorded)
    (answer : ((d.network name).exec x).1 = .ok (some network)) :
    Survey d recorded (name :: names) x ((name, network) :: orphans) := by
  constructor
  · intro o mem
    rcases List.mem_cons.mp mem with rfl | mem
    · exact ⟨List.mem_cons_self, unrecorded, x, .nothing x, answer⟩
    · obtain ⟨listed, unrecorded, z, asked', answer⟩ := rest.sound o mem
      exact ⟨List.mem_cons_of_mem _ listed, unrecorded, z, asked.trans asked', answer⟩
  · intro name' mem unrecorded'
    rcases List.mem_cons.mp mem with rfl | mem
    · exact ⟨x, .nothing x, .inr ⟨network, List.mem_cons_self⟩⟩
    · obtain ⟨z, asked', answer⟩ := rest.complete name' mem unrecorded'
      refine ⟨z, asked.trans asked', answer.imp_right ?_⟩
      rintro ⟨n, known⟩
      exact ⟨n, List.mem_cons_of_mem _ known⟩

end Survey

theorem unrecorded_yields (recorded names : List String) :
    Yields may (unrecorded (inMemory d details) recorded names) w (fun r w' =>
      ∃ x, d.Asked w.director x ∧ w' = { w with director := x } ∧
        ∀ orphans, r = .ok orphans → Survey d recorded names w.director orphans) := by
  -- Each name that is asked about leaves the Director in another state for the names after it.
  induction names generalizing w with
  | nil =>
    refine .pure ⟨_, .nothing _, rfl, fun orphans same => ?_⟩
    obtain rfl := Except.ok.inj same
    exact .nil
  | cons name rest ih =>
    have asked : d.Asked w.director ((d.network name).exec w.director).2 :=
      .network name (.nothing _)
    unfold unrecorded
    refine .ite (fun known => ih.mono ?_) (fun unknown => ?_)
    · rintro r _ ⟨x, asked, rfl, survey⟩
      refine ⟨x, asked, rfl, fun orphans same => ?_⟩
      exact .cons (.nothing _) (survey orphans same) (.inl (by simpa using known))
    · have unknown : name ∉ recorded := by simpa using unknown
      refine .bind (.onDirector (fun e _ => ⟨_, asked, rfl, nofun⟩) (fun answer told => ?_))
      cases answer with
      | none =>
        refine ih.mono ?_
        rintro r _ ⟨x, asked', rfl, survey⟩
        refine ⟨x, asked.trans asked', rfl, fun orphans same => ?_⟩
        exact .cons asked (survey orphans same) (.inr (.inl told))
      | some network =>
        refine .bind (ih.mono ?_)
        rintro (e | others) _ ⟨x, asked', rfl, survey⟩
        · exact ⟨x, asked.trans asked', rfl, nofun⟩
        · refine .pure ⟨x, asked.trans asked', rfl, fun orphans same => ?_⟩
          obtain rfl := Except.ok.inj same
          split
          -- The survey of the rest already has the name, which is then not listed twice.
          next twice =>
            obtain ⟨o, mem, same⟩ := List.any_eq_true.mp twice
            have same : o.1 = name := by simpa using same
            exact .cons asked (survey others rfl) (.inr (.inr ⟨o.2, same ▸ mem⟩))
          next => exact (survey others rfl).add asked unknown told

theorem refresh_yields :
    Yields may (refresh (inMemory d details)) w (Refreshed d w) := by
  unfold refresh
  refine .bind (.instances (fun _ e => .failed _ _ (.nothing _)) ?_)
  have asked : d.Asked w.director (d.deployments.exec w.director).2 := .deployments (.nothing _)
  refine .bind (.onDirector (fun e _ => .failed _ _ asked) (fun names listed => ?_))
  refine .bind ((unrecorded_yields _ names).mono ?_)
  rintro (e | orphans) _ ⟨x, asked', rfl, survey⟩
  · exact .failed _ _ (asked.trans asked')
  · exact .onPool (.refreshed names orphans x (asked.trans asked') listed (survey orphans rfl))

end Yields

end Broker

end LedgerBroker
