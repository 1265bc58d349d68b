import LedgerBroker.Proofs.Membership
import LedgerBroker.Proofs.Run

set_option autoImplicit false

namespace LedgerBroker

namespace SimulatedDirector

variable {s : SimulatedDirector} {name other : String}

theorem mem_removeDeployment :
    other ∈ (s.removeDeployment name).deployments ↔ other ∈ s.deployments ∧ other ≠ name := by
  simp [removeDeployment]

theorem network_removeDeployment :
    (s.removeDeployment name).network? other = if other = name then none else s.network? other :=
  lookup_filter s.networks

theorem mem_addDeployment {m : Manifest} :
    other ∈ (s.addDeployment m).deployments ↔ other ∈ s.deployments ∨ other = m.name := by
  by_cases known : m.name ∈ s.deployments
  · simp only [addDeployment, hasDeployment, List.contains_eq_mem, known, decide_true, if_true]
    exact ⟨.inl, fun h => h.elim id (· ▸ known)⟩
  · simp [addDeployment, hasDeployment, known]

theorem network_addDeployment {m : Manifest} {network : String}
    (placed : m.networkName = some network) :
    (s.addDeployment m).network? other =
      if other = m.name then some network else s.network? other := by
  simp only [addDeployment, placed, network?, lookup_cons, lookup_filter]
  by_cases same : other = m.name <;> simp [same]

theorem networkName_render (deployment network : String) (permissioned : Bool)
    (details : DirectorDetails) :
    (Manifest.render deployment network permissioned details).networkName = some network := by
  cases permissioned <;> rfl

variable {x y : Director.Outages SimulatedDirector}

theorem exec_guard_ok {α : Type} {kind : Director.CallKind}
    {call : Call BrokerError SimulatedDirector α} {a : α}
    (h : ((Unreliable.guard kind Except.error call).exec x).1 = .ok a) :
    (call.exec x.service).1 = .ok a ∧
      ((Unreliable.guard kind Except.error call).exec x).2.service = (call.exec x.service).2 := by
  rcases Unreliable.exec_guard_cases kind Except.error call x with ⟨o, _, _, run⟩ | ⟨left, run, _⟩
  · rw [run] at h
    cases h
  · rw [run] at h ⊢
    exact ⟨h, rfl⟩

theorem exec_guard_error {α : Type} {kind : Director.CallKind}
    {call : Call BrokerError SimulatedDirector α} {e : BrokerError}
    (h : ((Unreliable.guard kind Except.error call).exec x).1 = .error e)
    (kept : ∀ e, (call.exec x.service).1 = .error e → (call.exec x.service).2 = x.service) :
    ((Unreliable.guard kind Except.error call).exec x).2.service = x.service := by
  rcases Unreliable.exec_guard_cases kind Except.error call x with ⟨o, _, _, run⟩ | ⟨left, run, _⟩
  · rw [run]
  · rw [run] at h ⊢
    exact kept e h

theorem exec_guard_query {α : Type} {kind : Director.CallKind}
    (f : SimulatedDirector → Except BrokerError α) :
    ((Unreliable.guard kind Except.error (Call.query f)).exec x).2.service = x.service := by
  rcases Unreliable.exec_guard_cases kind Except.error (Call.query f) x with
    ⟨o, _, _, run⟩ | ⟨left, run, _⟩ <;> rw [run]
  rfl

theorem service_of_asked (h : faulty.Asked x y) : y.service = x.service := by
  -- All four questions are queries, and an outage changes nothing either.
  induction h with
  | nothing => rfl
  | task token _ ih | vmIps name _ ih | deployments _ ih | network name _ ih =>
    exact (exec_guard_query _).trans ih

section Create

variable {m : Manifest} {task : Task} {e : BrokerError}

theorem service_of_created (h : ((faulty.createDeployment m).exec x).1 = .ok task) :
    ∃ description, ((faulty.createDeployment m).exec x).2.service =
      ((x.service.addDeployment m).startTask description).2 := by
  -- That a task came back rules out both an outage and the switch that fails creations.
  obtain ⟨done, same⟩ := exec_guard_ok h
  refine ⟨"create deployment " ++ m.name, same.trans ?_⟩
  simp only [director, Call.exec_of] at done ⊢
  split at done
  next => cases done
  next off => rw [if_neg off]

theorem network_of_created {network : String} (placed : m.networkName = some network)
    (h : ((faulty.createDeployment m).exec x).1 = .ok task) :
    ((faulty.createDeployment m).exec x).2.service.network? other =
      if other = m.name then some network else x.service.network? other := by
  obtain ⟨_, same⟩ := service_of_created h
  rw [same]
  exact network_addDeployment placed

theorem service_of_not_created
    (h : ((faulty.createDeployment m).exec x).1 = .error e) :
    ((faulty.createDeployment m).exec x).2.service = x.service := by
  refine exec_guard_error h fun e failed => ?_
  simp only [director, Call.exec_of] at failed ⊢
  split at failed
  next on => rw [if_pos on]
  next => cases failed

theorem not_created (calls : x.outages = [])
    (h : ((faulty.createDeployment m).exec x).1 = .error e) :
    x.service.failsCreations = true ∧ ∃ cause, e = .boshConnect cause := by
  rcases Unreliable.exec_guard_cases .createDeployment Except.error (director.createDeployment m) x
    with ⟨o, mem, _⟩ | ⟨_, run, _⟩
  · exact nomatch calls ▸ mem
  · have failed : ((director.createDeployment m).exec x.service).1 = .error e :=
      (congrArg Prod.fst run).symm.trans h
    simp only [director, Call.exec_of] at failed
    split at failed
    next on => exact ⟨on, _, (Except.error.inj failed).symm⟩
    next => cases failed

end Create

section Delete

variable {task : Task} {e : BrokerError}

theorem service_of_deleted (h : ((faulty.deleteDeployment name).exec x).1 = .ok task) :
    ∃ deleted description, ((faulty.deleteDeployment name).exec x).2.service =
      ({ x.service.removeDeployment name with deleted := deleted }.startTask description).2 :=
  ⟨_, _, (exec_guard_ok h).2⟩

theorem network_of_deleted (h : ((faulty.deleteDeployment name).exec x).1 = .ok task) :
    ((faulty.deleteDeployment name).exec x).2.service.network? other =
      if other = name then none else x.service.network? other := by
  obtain ⟨_, _, same⟩ := service_of_deleted h
  rw [same]
  exact network_removeDeployment

theorem running_of_deleted {n : String} (h : ((faulty.deleteDeployment name).exec x).1 = .ok task)
    (on : ((faulty.deleteDeployment name).exec x).2.service.network? other = some n) :
    x.service.network? other = some n := by
  rw [network_of_deleted h] at on
  split at on
  · cases on
  · exact on

theorem service_of_not_deleted
    (h : ((faulty.deleteDeployment name).exec x).1 = .error e) :
    ((faulty.deleteDeployment name).exec x).2.service = x.service :=
  exec_guard_error h nofun

end Delete

theorem mem_of_listed {names : List String}
    (h : (faulty.deployments.exec x).1 = .ok names) :
    name ∈ names ↔ name ∈ x.service.deployments := by
  obtain rfl := Except.ok.inj (exec_guard_ok h).1
  exact List.mem_mergeSort

theorem network_of_told {answer : Option String}
    (h : ((faulty.network name).exec x).1 = .ok answer) :
    x.service.network? name = answer :=
  Except.ok.inj (exec_guard_ok h).1

theorem mem_surveyed {recorded names : List String} {orphans : List (String × String)} {n : String}
    (known : ∀ name, name ∈ x.service.deployments ↔ ∃ n, x.service.network? name = some n)
    (listed : (faulty.deployments.exec x).1 = .ok names)
    (survey : Broker.Survey faulty recorded names (faulty.deployments.exec x).2 orphans) :
    (name, n) ∈ orphans ↔ name ∉ recorded ∧ x.service.network? name = some n := by
  have surveyed : (faulty.deployments.exec x).2.service = x.service :=
    service_of_asked (.deployments (.nothing _))
  -- No question changes the Director, so every answer is about the state it was begun in.
  have told {y} {answer : Option String} (asked : faulty.Asked (faulty.deployments.exec x).2 y)
      (answered : ((faulty.network name).exec y).1 = .ok answer) :
      x.service.network? name = answer := by
    rw [← surveyed, ← service_of_asked asked]
    exact network_of_told answered
  constructor
  · intro mem
    obtain ⟨_, unrecorded, y, asked, answered⟩ := survey.sound _ mem
    exact ⟨unrecorded, told asked answered⟩
  · rintro ⟨unrecorded, on⟩
    have mem := (mem_of_listed listed).mpr ((known name).mpr ⟨n, on⟩)
    obtain ⟨y, asked, absent | ⟨m, orphan⟩⟩ := survey.complete name mem unrecorded
    · exact nomatch on.symm.trans (told asked absent)
    · obtain ⟨_, _, z, asked, answered⟩ := survey.sound _ orphan
      obtain rfl := Option.some.inj (on.symm.trans (told asked answered))
      exact orphan

end SimulatedDirector

namespace Broker

open SimulatedDirector (faulty)

variable {w : Broker (Director.Outages SimulatedDirector) MemoryStore} {id name : String}
  {details : DirectorDetails} {task : Task}

theorem Placement.network_of_started {request : Request} {choice : Nat}
    (p : Placement w id request choice)
    (started : ((faulty.createDeployment (p.manifest details)).exec w.director).1 = .ok task) :
    ((faulty.createDeployment (p.manifest details)).exec w.director).2.service.network? name =
      if name = p.deployment then some p.network else w.director.service.network? name :=
  SimulatedDirector.network_of_created (SimulatedDirector.networkName_render _ _ _ _) started

end Broker

end LedgerBroker
