import LedgerBroker.Proofs.BoundInstances
import LedgerBroker.Proofs.CompletedDeletion
import LedgerBroker.Proofs.TaskNumbers

set_option autoImplicit false

namespace LedgerBroker

namespace Broker

open SimulatedDirector (faulty Starts Progress Numbered)

variable {details : DirectorDetails} {may : Store.CallKind → Prop}
  {w w' : Broker (Director.Outages SimulatedDirector) MemoryStore}
  {e : Event SimulatedDirector.Move} {i : Instance} {id token : String} {task : Task}

structure PutsUp (details : DirectorDetails)
    (w : Broker (Director.Outages SimulatedDirector) MemoryStore)
    (e : Event SimulatedDirector.Move)
    (w' : Broker (Director.Outages SimulatedDirector) MemoryStore) (deployment : String)
    (task : Task) : Prop where
  asked : ∃ id request accepts choice now,
    e = .act (.provision id request accepts choice now) ∧
      ∃ p : Placement w id request choice, p.deployment = deployment ∧
        ((faulty.createDeployment (p.manifest details)).exec w.director).1 = .ok task
  starts : Starts w.director.service w'.director.service task
  description : task.description = "create deployment " ++ deployment

structure TakesDown (w : Broker (Director.Outages SimulatedDirector) MemoryStore)
    (e : Event SimulatedDirector.Move)
    (w' : Broker (Director.Outages SimulatedDirector) MemoryStore) (id deployment : String)
    (task : Task) : Prop where
  asked : ∃ accepts now, e = .act (.deprovision id accepts now) ∧
    ∃ (p : Departure w id) (x : Director.Outages SimulatedDirector), faulty.Asked w.director x ∧
      p.i.deployment = deployment ∧ ((faulty.deleteDeployment deployment).exec x).1 = .ok task
  starts : Starts w.director.service w'.director.service task
  description : task.description = "delete deployment " ++ deployment

structure Issues (details : DirectorDetails)
    (w : Broker (Director.Outages SimulatedDirector) MemoryStore)
    (e : Event SimulatedDirector.Move)
    (w' : Broker (Director.Outages SimulatedDirector) MemoryStore) : Prop where
  progress : Progress w.director.service w'.director.service
  provision : ∀ i ∈ w'.records.instances,
    (∃ j ∈ w.records.instances, j.deployment = i.deployment ∧ j.provisionTask = i.provisionTask) ∨
      ∃ task, PutsUp details w e w' i.deployment task ∧ task.token = i.provisionTask
  deprovision : ∀ i ∈ w'.records.instances, ∀ token, i.deprovisionTask = some token →
    i ∈ w.records.instances ∨
      ∃ task, TakesDown w e w' i.id i.deployment task ∧ task.token = token

namespace Issues

theorem kept (progress : Progress w.director.service w'.director.service)
    (sub : ∀ i ∈ w'.records.instances, i ∈ w.records.instances) : Issues details w e w' where
  progress := progress
  provision i mem := .inl ⟨i, sub i mem, rfl, rfl⟩
  deprovision i mem _ _ := .inl (sub i mem)

theorem put {pool : NetworkPool} {x : Director.Outages SimulatedDirector}
    (progress : Progress w.director.service x.service)
    (provision : (∃ j ∈ w.records.instances,
        j.deployment = i.deployment ∧ j.provisionTask = i.provisionTask) ∨
      ∃ task, PutsUp details w e ⟨pool, x, w.records.putInstance i⟩ i.deployment task ∧
        task.token = i.provisionTask)
    (deprovision : ∀ token, i.deprovisionTask = some token →
      ∃ task, TakesDown w e ⟨pool, x, w.records.putInstance i⟩ i.id i.deployment task ∧
        task.token = token) :
    Issues details w e ⟨pool, x, w.records.putInstance i⟩ where
  progress := progress
  provision j mem := by
    rcases MemoryStore.mem_putInstance.mp mem with ⟨old, _⟩ | rfl
    · exact .inl ⟨j, old, rfl, rfl⟩
    · exact provision
  deprovision j mem token marked := by
    rcases MemoryStore.mem_putInstance.mp mem with ⟨old, _⟩ | rfl
    · exact .inl old
    · exact .inr (deprovision token marked)

end Issues

theorem progress_of_asked {x y : Director.Outages SimulatedDirector} (asked : faulty.Asked x y) :
    Progress x.service y.service := by
  have same : y.service = x.service := SimulatedDirector.service_of_asked asked
  exact .still (congrArg _ same) (congrArg _ same)

theorem Departure.starts (p : Departure w id) {x : Director.Outages SimulatedDirector}
    (asked : faulty.Asked w.director x)
    (deleted : ((faulty.deleteDeployment p.i.deployment).exec x).1 = .ok task) :
    Starts w.director.service ((faulty.deleteDeployment p.i.deployment).exec x).2.service task ∧
      task.description = "delete deployment " ++ p.i.deployment := by
  have started := SimulatedDirector.starts_of_deleted deleted
  rwa [SimulatedDirector.service_of_asked asked] at started

theorem Turn.issues {action : Action} (turn : Turn faulty details may w action w') :
    Issues details w (.act action) w' := by
  cases turn with
  | provision outcome =>
    cases outcome with
    | refused => exact .kept (.still rfl rfl) fun _ mem => mem
    | joined plan live _ _ _ recorded same =>
      exact .put (.still rfl rfl) (.inl ⟨live, recorded, same, rfl⟩) nofun
    | notStarted p e failed =>
      have same := SimulatedDirector.service_of_not_created failed
      exact .kept (.still (congrArg _ same) (congrArg _ same)) fun _ mem => mem
    | unrecorded p task e created =>
      exact .kept (.started task (SimulatedDirector.starts_of_created created).1) fun _ mem => mem
    | recorded p task created =>
      obtain ⟨starts, description⟩ := SimulatedDirector.starts_of_created created
      refine .put (.started task starts) (.inr ⟨task, ?_, rfl⟩) nofun
      exact ⟨⟨_, _, _, _, _, rfl, p, rfl, created⟩, starts, description⟩
  | @deprovision id accepts now _ _ outcome =>
    cases outcome with
    | unchanged _ x asked => exact .kept (progress_of_asked asked) fun _ mem => mem
    | left _ _ x asked =>
      exact .kept (progress_of_asked asked) fun _ mem => (MemoryStore.mem_removeInstance.mp mem).1
    | notDeleted p x asked e failed =>
      have same := (SimulatedDirector.service_of_not_deleted failed).trans
        (SimulatedDirector.service_of_asked asked)
      exact .kept (.still (congrArg _ same) (congrArg _ same)) fun _ mem => mem
    | unmarked p x asked task deleted =>
      exact .kept (.started task (p.starts asked deleted).1) fun _ mem => mem
    | marked p x asked task deleted =>
      obtain ⟨starts, description⟩ := p.starts asked deleted
      have ⟨mem, own⟩ := MemoryStore.mem_of_find p.found
      refine .put (.started task starts) (.inl ⟨p.i, mem, rfl, rfl⟩) fun token marked => ?_
      refine ⟨task, ?_, Option.some.inj marked⟩
      change TakesDown _ _ _ p.i.id _ _
      rw [own]
      exact ⟨⟨accepts, now, rfl, p, x, asked, rfl, deleted⟩, starts, description⟩
  | looked outcome =>
    obtain ⟨x, asked, rfl⟩ := outcome.asked
    exact .kept (progress_of_asked asked) fun _ mem => mem
  | completed looked _ outcome =>
    obtain ⟨x, asked, rfl⟩ := looked.asked
    cases outcome with
    | failed | absent => exact .kept (progress_of_asked asked) fun _ mem => mem
    | stranded | shared | freed =>
      exact .kept (progress_of_asked asked) fun _ mem => (MemoryStore.mem_removeInstance.mp mem).1
  | bind outcome =>
    cases outcome with
    | refused e x asked | bound _ _ _ x asked =>
      exact .kept (progress_of_asked asked) fun _ mem => mem
  | unbind outcome => cases outcome <;> exact .kept (.still rfl rfl) fun _ mem => mem
  | refresh outcome =>
    cases outcome with
    | failed e x asked | refreshed _ _ x asked =>
      exact .kept (progress_of_asked asked) fun _ mem => mem

theorem Change.issues
    (change : Change faulty details may w SimulatedDirector.Move.apply e w') :
    Issues details w e w' := by
  cases change with
  | acted turn => exact turn.issues
  | restarted found =>
    cases found with
    | refreshed _ _ x asked => exact .kept (progress_of_asked asked) fun _ mem => mem
  | stayed | broken | mended => exact .kept (.still rfl rfl) fun _ mem => mem
  | moved m =>
    cases m with
    | setTaskState token state => exact .kept (.setTaskState token state) fun _ mem => mem
    | removeDeployment | breaks | mends => exact .kept (.still rfl rfl) fun _ mem => mem

theorem Issues.old_of_known (issues : Issues details w e w')
    (numbered : Numbered w.director.service) (known : w.director.service.Knows task)
    (mem : i ∈ w'.records.instances) (marked : i.deprovisionTask = some task.token) :
    i ∈ w.records.instances := by
  rcases issues.deprovision i mem _ marked with old | ⟨started, takes, same⟩
  · exact old
  · have below := numbered.below known
    rw [← Task.id_of_token same, takes.starts.number] at below
    exact absurd below (Nat.lt_irrefl _)

/-- A token that no record waits with, and that the Director does not give away again. -/
structure Spent (w : Broker (Director.Outages SimulatedDirector) MemoryStore) (token : String) :
    Prop where
  known : ∃ task, w.director.service.Knows task ∧ task.token = token
  unused : ∀ i ∈ w.records.instances, i.deprovisionTask ≠ some token

theorem Spent.issues (h : w.Spent token) (numbered : Numbered w.director.service)
    (issues : Issues details w e w') : w'.Spent token := by
  obtain ⟨task, known, rfl⟩ := h.known
  refine ⟨⟨task, known.progress issues.progress, rfl⟩, fun i mem marked => ?_⟩
  exact h.unused i (issues.old_of_known numbered known mem marked) marked

theorem Finished.marked (h : Finished w id (some token) i) : i.deprovisionTask = some token := by
  obtain ⟨token', _, asked, marked, _⟩ := h.done
  exact marked.trans asked.symm

structure Closes (w : Broker (Director.Outages SimulatedDirector) MemoryStore)
    (e : Event SimulatedDirector.Move)
    (w' : Broker (Director.Outages SimulatedDirector) MemoryStore) (token : String) (i : Instance) :
    Prop where
  polls : ∃ id, e = .act (.lastOperation id (some token))
  recorded : i ∈ w.records.instances
  gone : i ∉ w'.records.instances

theorem Closes.finished (h : Closes w e w' token i) (tenancy : Tenancy w)
    (change : Change faulty details may w SimulatedDirector.Move.apply e w') :
    e = .act (.lastOperation i.id (some token)) ∧ Finished w i.id (some token) i := by
  obtain ⟨id, rfl⟩ := h.polls
  cases change with
  | acted turn =>
    by_cases unfinished : ∀ j, ¬Finished w id (some token) j
    · exact absurd ((turn.untouched unfinished).records ▸ h.recorded) h.gone
    · obtain ⟨j, finished⟩ := not_forall_not.mp unfinished
      -- The poll drops at most the record with the id that it asks about.
      have own : i.id = id := by
        have instances := turn.instances
        have gone := h.gone
        generalize w'.records = r at instances gone
        cases instances with
        | same same => exact absurd (same ▸ h.recorded) gone
        | completed =>
          by_contra other
          exact gone (MemoryStore.mem_removeInstance.mpr ⟨h.recorded, other⟩)
      obtain rfl := tenancy.id_unique i h.recorded j finished.recorded (own.trans finished.own.symm)
      exact ⟨own ▸ rfl, own ▸ finished⟩

section History

variable {reach : List (Event SimulatedDirector.Move) →
    Broker (Director.Outages SimulatedDirector) MemoryStore}
  {part events : List (Event SimulatedDirector.Move)}

structure CreatedBy (details : DirectorDetails) (reach : List (Event SimulatedDirector.Move) →
    Broker (Director.Outages SimulatedDirector) MemoryStore)
    (events : List (Event SimulatedDirector.Move)) (i : Instance)
    (before : List (Event SimulatedDirector.Move)) (e : Event SimulatedDirector.Move)
    (task : Task) : Prop where
  during : before ++ [e] <+: events
  putsUp : PutsUp details (reach before) e (reach (before ++ [e])) i.deployment task
  named : task.token = i.provisionTask
  since : ∀ part, before ++ [e] <+: part → part <+: events →
    ∃ j ∈ (reach part).records.instances,
      j.deployment = i.deployment ∧ j.provisionTask = i.provisionTask

structure DeletedBy (reach : List (Event SimulatedDirector.Move) →
    Broker (Director.Outages SimulatedDirector) MemoryStore)
    (events : List (Event SimulatedDirector.Move)) (i : Instance)
    (before : List (Event SimulatedDirector.Move)) (e : Event SimulatedDirector.Move)
    (task : Task) : Prop where
  during : before ++ [e] <+: events
  takesDown : TakesDown (reach before) e (reach (before ++ [e])) i.id i.deployment task
  named : i.deprovisionTask = some task.token
  since : ∀ part, before ++ [e] <+: part → part <+: events → i ∈ (reach part).records.instances

/-- The states that a run goes through, from a broker without records and a Director without
tasks on. -/
structure Course (details : DirectorDetails) (reach : List (Event SimulatedDirector.Move) →
    Broker (Director.Outages SimulatedDirector) MemoryStore) : Prop where
  unrecorded : (reach []).records.instances = []
  unstarted : (reach []).director.service.tasks = []
  next : (reach []).director.service.nextTask = 1
  change : ∀ events e, Change faulty details (fun _ => True) (reach events)
    SimulatedDirector.Move.apply e (reach (events ++ [e]))
  tenancy : ∀ events, Tenancy (reach events)
  parting : ∀ events, Parting (reach events)

namespace Course

theorem issues (h : Course details reach) (events : List (Event SimulatedDirector.Move))
    (e : Event SimulatedDirector.Move) :
    Issues details (reach events) e (reach (events ++ [e])) :=
  (h.change events e).issues

theorem numbered (h : Course details reach) (events : List (Event SimulatedDirector.Move)) :
    Numbered (reach events).director.service := by
  induction events using List.reverseRecOn with
  | nil => exact ⟨by simp [h.unstarted], by simp [h.unstarted, h.next]⟩
  | append_singleton events e ih => exact ih.progress (h.issues events e).progress

theorem next_le (h : Course details reach) (events : List (Event SimulatedDirector.Move)) :
    (reach events).director.service.nextTask ≤ events.length + 1 := by
  induction events using List.reverseRecOn with
  | nil => exact Nat.le_of_eq h.next
  | append_singleton events e ih =>
    have step := (h.issues events e).progress.next_le
    rw [List.length_append, List.length_singleton]
    omega

theorem later {P : Broker (Director.Outages SimulatedDirector) MemoryStore → Prop}
    (keeps : ∀ part e, P (reach part) → P (reach (part ++ [e]))) (inside : part <+: events)
    (holds : P (reach part)) : P (reach events) := by
  obtain ⟨rest, rfl⟩ := inside
  -- The induction is on what comes after the part.
  induction rest using List.reverseRecOn with
  | nil => rwa [List.append_nil]
  | append_singleton rest e ih =>
    rw [← List.append_assoc]
    exact keeps _ e ih

theorem knows (h : Course details reach) (inside : part <+: events)
    (known : (reach part).director.service.Knows task) :
    (reach events).director.service.Knows task :=
  later (P := fun w => w.director.service.Knows task)
    (fun part e known => known.progress (h.issues part e).progress) inside known

theorem spent (h : Course details reach) (inside : part <+: events)
    (spent : (reach part).Spent token) : (reach events).Spent token :=
  later (P := (Spent · token))
    (fun part e spent => spent.issues (h.numbered part) (h.issues part e)) inside spent

theorem created (h : Course details reach) (events : List (Event SimulatedDirector.Move))
    (mem : i ∈ (reach events).records.instances) :
    ∃ before e task, CreatedBy details reach events i before e task := by
  -- The token came with the last event, or it is that of a record from before it.
  induction events using List.reverseRecOn generalizing i with
  | nil =>
    rw [h.unrecorded] at mem
    exact absurd mem List.not_mem_nil
  | append_singleton events e ih =>
    rcases (h.issues events e).provision i mem with ⟨j, old, on, same⟩ | ⟨task, puts, named⟩
    · obtain ⟨before, e', task, created⟩ := ih old
      refine ⟨before, e', task, created.during.trans (List.prefix_append _ _),
        on ▸ created.putsUp, created.named.trans same, fun part early late => ?_⟩
      rcases List.prefix_concat_iff.mp late with rfl | inside
      · exact ⟨i, mem, rfl, rfl⟩
      · exact on ▸ same ▸ created.since part early inside
    · refine ⟨events, e, task, List.prefix_refl _, puts, named, fun part early late => ?_⟩
      obtain rfl : events ++ [e] = part := early.eq_of_length_le late.length_le
      exact ⟨i, mem, rfl, rfl⟩

theorem deleted (h : Course details reach) (events : List (Event SimulatedDirector.Move))
    (mem : i ∈ (reach events).records.instances) (marked : i.deprovisionTask = some token) :
    ∃ before e task, DeletedBy reach events i before e task := by
  induction events using List.reverseRecOn with
  | nil =>
    rw [h.unrecorded] at mem
    exact absurd mem List.not_mem_nil
  | append_singleton events e ih =>
    rcases (h.issues events e).deprovision i mem token marked with old | ⟨task, takes, rfl⟩
    · obtain ⟨before, e', task, deleted⟩ := ih old
      refine ⟨before, e', task, deleted.during.trans (List.prefix_append _ _), deleted.takesDown,
        deleted.named, fun part early late => ?_⟩
      rcases List.prefix_concat_iff.mp late with rfl | inside
      · exact mem
      · exact deleted.since part early inside
    · refine ⟨events, e, task, List.prefix_refl _, takes, marked, fun part early late => ?_⟩
      obtain rfl : events ++ [e] = part := early.eq_of_length_le late.length_le
      exact mem

theorem provisionTask_ne (h : Course details reach) (earlier : part <+: events) {j : Instance}
    (mem : j ∈ (reach part).records.instances) (mem' : i ∈ (reach events).records.instances)
    (marked : i.deprovisionTask = some token) : j.provisionTask ≠ token := by
  rintro rfl
  obtain ⟨_, _, task, created⟩ := h.created part mem
  obtain ⟨_, _, task', deleted⟩ := h.deleted events mem' marked
  have known := h.knows (created.during.trans earlier) created.putsUp.starts.knows
  have known' := h.knows deleted.during deleted.takesDown.starts.knows
  have same : task.token = task'.token :=
    created.named.trans (Option.some.inj (marked.symm.trans deleted.named))
  have described := (h.numbered events).description_of_token known known' same
  rw [created.putsUp.description, deleted.takesDown.description] at described
  simpa using congrArg String.toList described

theorem deprovisionTask_unique (h : Course details reach) {j : Instance}
    (mem : i ∈ (reach events).records.instances)
    (mem' : j ∈ (reach events).records.instances) (marked : i.deprovisionTask = some token)
    (marked' : j.deprovisionTask = some token) : j = i := by
  obtain ⟨_, _, task, deleted⟩ := h.deleted events mem marked
  obtain ⟨_, _, task', deleted'⟩ := h.deleted events mem' marked'
  have known := h.knows deleted.during deleted.takesDown.starts.knows
  have known' := h.knows deleted'.during deleted'.takesDown.starts.knows
  have same : task.token = task'.token := Option.some.inj <|
    deleted.named.symm.trans (marked.trans (marked'.symm.trans deleted'.named))
  have described := (h.numbered events).description_of_token known known' same
  rw [deleted.takesDown.description, deleted'.takesDown.description] at described
  have on : i.deployment = j.deployment := by
    simpa [String.ext_iff] using congrArg String.toList described
  exact h.parting events i mem (marked ▸ nofun) j mem' on.symm

theorem spent_of_closes (h : Course details reach)
    (closes : Closes (reach part) e (reach (part ++ [e])) token i) :
    (reach (part ++ [e])).Spent token := by
  have marked := (closes.finished (h.tenancy part) (h.change part e)).2.marked
  obtain ⟨_, _, task, deleted⟩ := h.deleted part closes.recorded marked
  obtain rfl : task.token = token := Option.some.inj (deleted.named.symm.trans marked)
  have known := h.knows deleted.during deleted.takesDown.starts.knows
  refine ⟨⟨task, known.progress (h.issues part e).progress, rfl⟩, fun j mem waits => ?_⟩
  have old := (h.issues part e).old_of_known (h.numbered part) known mem waits
  obtain rfl := h.deprovisionTask_unique closes.recorded old marked waits
  exact closes.gone mem

theorem closes_once (h : Course details reach) {before before' : List (Event SimulatedDirector.Move)}
    {e' : Event SimulatedDirector.Move} {i' : Instance} (inside : before ++ [e] <+: events)
    (inside' : before' ++ [e'] <+: events) (first : before.length ≤ before'.length)
    (closes : Closes (reach before) e (reach (before ++ [e])) token i)
    (closes' : Closes (reach before') e' (reach (before' ++ [e'])) token i') :
    before = before' ∧ i = i' := by
  have marked := (closes.finished (h.tenancy before) (h.change before e)).2.marked
  have marked' := (closes'.finished (h.tenancy before') (h.change before' e')).2.marked
  have along := (List.prefix_append before' [e']).trans inside'
  rcases Nat.lt_or_eq_of_le first with earlier | same
  · -- After the first of the two no record waits with the token any more.
    have part : before ++ [e] <+: before' :=
      List.prefix_of_prefix_length_le inside along (by simpa using Nat.succ_le_of_lt earlier)
    exact absurd marked' ((h.spent part (h.spent_of_closes closes)).unused i' closes'.recorded)
  · obtain rfl : before = before' :=
      (List.prefix_of_prefix_length_le ((List.prefix_append _ _).trans inside) along
        first).eq_of_length same
    exact ⟨rfl, h.deprovisionTask_unique closes'.recorded closes.recorded marked' marked⟩

end Course

structure Resolves (s : SimulatedDirector) (most : Nat) (token : String) (task : Task) : Prop where
  named : task.token = token
  number_le : task.id ≤ most
  told : task.id < Numeral.bound64 →
    ∃ state, (SimulatedDirector.director.task token).exec s = (.ok { task with state := state }, s)

theorem Course.resolves (h : Course details reach) (inside : part <+: events)
    (known : (reach part).director.service.Knows task) :
    Resolves (reach events).director.service events.length task.token task := by
  have known := h.knows inside known
  have below := (h.numbered events).below known
  have next := h.next_le events
  exact ⟨rfl, by omega, (h.numbered events).tells known⟩

theorem Course.untouched (h : Course details reach) (id : String)
    (foreign : ∀ i ∈ (reach events).records.instances, i.deprovisionTask ≠ some token) :
    Untouched (reach events) (reach (events ++ [.act (.lastOperation id (some token))])) := by
  have change := h.change events (.act (.lastOperation id (some token)))
  generalize reach (events ++ [.act (.lastOperation id (some token))]) = w' at change ⊢
  cases change with
  | acted turn => exact turn.untouched fun i finished => foreign i finished.recorded finished.marked

end History

/-- What the tokens that are on record after a run stand for. -/
structure Unambiguous (details : DirectorDetails) (reach : List (Event SimulatedDirector.Move) →
    Broker (Director.Outages SimulatedDirector) MemoryStore)
    (events : List (Event SimulatedDirector.Move)) : Prop where
  apart : ∀ i ∈ (reach events).records.instances, ∀ token, i.deprovisionTask = some token →
    ∀ j ∈ (reach events).records.instances,
      j.provisionTask ≠ token ∧ (j.deprovisionTask = some token → j = i)
  created : ∀ i ∈ (reach events).records.instances, ∃ before e task,
    CreatedBy details reach events i before e task ∧
      Resolves (reach events).director.service events.length i.provisionTask task
  deleted : ∀ i ∈ (reach events).records.instances, ∀ token, i.deprovisionTask = some token →
    ∃ before e task, DeletedBy reach events i before e task ∧
      Resolves (reach events).director.service events.length token task
  provision_polls : ∀ part, part <+: events → ∀ j ∈ (reach part).records.instances, ∀ id,
    Untouched (reach events) (reach (events ++ [.act (.lastOperation id (some j.provisionTask))]))
  closes_once : ∀ token before e i before' e' i', before ++ [e] <+: events →
    before' ++ [e'] <+: events → Closes (reach before) e (reach (before ++ [e])) token i →
      Closes (reach before') e' (reach (before' ++ [e'])) token i' → before = before' ∧ i = i'

theorem Course.unambiguous {reach : List (Event SimulatedDirector.Move) →
    Broker (Director.Outages SimulatedDirector) MemoryStore} (h : Course details reach)
    (events : List (Event SimulatedDirector.Move)) : Unambiguous details reach events where
  apart i mem token marked j mem' := ⟨h.provisionTask_ne (List.prefix_refl _) mem' mem marked,
    fun marked' => h.deprovisionTask_unique mem mem' marked marked'⟩
  created i mem := by
    obtain ⟨before, e, task, created⟩ := h.created events mem
    have resolves := h.resolves created.during created.putsUp.starts.knows
    exact ⟨before, e, task, created, created.named ▸ resolves⟩
  deleted i mem token marked := by
    obtain ⟨before, e, task, deleted⟩ := h.deleted events mem marked
    obtain rfl : task.token = token := Option.some.inj (deleted.named.symm.trans marked)
    exact ⟨before, e, task, deleted, h.resolves deleted.during deleted.takesDown.starts.knows⟩
  provision_polls part inside j mem id :=
    h.untouched id fun i mem' marked => h.provisionTask_ne inside mem mem' marked rfl
  closes_once token before e i before' e' i' inside inside' closes closes' := by
    rcases Nat.le_total before.length before'.length with first | first
    · exact h.closes_once inside inside' first closes closes'
    · exact (h.closes_once inside' inside first closes' closes).imp Eq.symm Eq.symm

/-- Along every run, whatever fails and however often the broker is restarted, no token on record
stands for two operations. -/
theorem run_tokens_unambiguous (details : DirectorDetails) (networks : List String)
    (fails atOnce : Bool) (events : List (Event SimulatedDirector.Move)) :
    Unambiguous details
      (fun part => (run (inMemory faulty details) SimulatedDirector.Move.apply
        (fresh networks (SimulatedDirector.idle fails atOnce)) part).settled) events :=
  Course.unambiguous {
    unrecorded := rfl
    unstarted := rfl
    next := rfl
    change := change_run faulty details _ networks _
    tenancy := Tenancy.run networks _
    parting := Parting.run networks _ } events

end Broker

end LedgerBroker
