import LedgerBroker.Proofs.BoundInstances
import LedgerBroker.Proofs.PollFailure

set_option autoImplicit false

namespace LedgerBroker

namespace Broker

open Step

variable {δ μ : Type} {d : Director δ} {details : DirectorDetails} {may : Store.CallKind → Prop}
  {move : μ → δ → δ} {w w' : Broker δ MemoryStore} {i : Instance} {token : String}

theorem exec_deprovision_waiting (tenancy : Tenancy w) (mem : i ∈ w.records.instances)
    (marked : i.deprovisionTask = some token) (now : Timestamp) (x : δ) :
    (deprovision (inMemory d details) i.id true now).exec (w.again x) =
      (.ok (.deleting token), w.again x) := by
  have found : (read ((inMemory d details).store.findInstance i.id)).exec (w.again x) =
      (.ok (some i), w.again x) := by
    have looked : w.records.instances.find? (·.id = i.id) = some i := tenancy.find mem rfl
    exact looked ▸ rfl
  simp only [deprovision]
  rw [if_neg (by decide), Call.exec_bind_ok found]
  simp only [marked]
  rfl

/-- What a request to delete an instance again is to do: nothing while its deletion is under way or
done, and a new deletion once that has failed. -/
structure Honours (d : Director δ) (details : DirectorDetails)
    (b : Broker (δ × List String) (Store.Outages MemoryStore)) (i : Instance) (token : String)
    (now : Timestamp) : Prop where
  going : ∀ task, ((d.recording.task token).exec b.director).1 = .ok task →
    task.state.isOther = false →
    Ends b (deprovision (inMemory d.recording details) i.id true now) fun result w' =>
      result = .ok (.deleting token) ∧ w'.pool = b.pool ∧ w'.records = b.records.service ∧
        w'.director.2 = b.director.2
  failed : ∀ task, ((d.recording.task token).exec b.director).1 = .ok task →
    task.state.isOther = true →
    Ends b (deprovision (inMemory d.recording details) i.id true now) fun result w' =>
      ∃ new, result = .ok (.deleting new) ∧ w'.director.2 = i.deployment :: b.director.2 ∧
        ∃ j ∈ w'.records.instances, j.id = i.id ∧ j.deprovisionTask = some new

theorem honours_iff {w : Broker (δ × List String) MemoryStore} (tenancy : Tenancy w)
    (mem : i ∈ w.records.instances) (marked : i.deprovisionTask = some token) (now : Timestamp) :
    Honours d details (w.again w.director) i token now ↔
      ∀ task, ((d.recording.task token).exec w.director).1 = .ok task →
        task.state.isOther = false := by
  have run : (deprovision (inMemory d.recording details) i.id true now).exec
      (w.again w.director) = (.ok (.deleting token), w.again w.director) :=
    exec_deprovision_waiting tenancy mem marked now w.director
  constructor
  · intro honours task told
    by_contra failed
    have ends := honours.failed task told (by simpa using failed)
    rw [Ends, run] at ends
    -- A new deletion would stand in the Director's notes.
    obtain ⟨_, _, noted, _⟩ := ends
    simp [again] at noted
  · intro unfailed
    refine ⟨fun task told _ => ?_, fun task told failed => ?_⟩
    · rw [Ends, run]
      exact ⟨rfl, rfl, rfl, rfl⟩
    · exact nomatch failed.symm.trans (unfailed task told)

def Undone (d : Director δ) (w : Broker δ MemoryStore) (token : String) : Prop :=
  ∀ task, ((d.task token).exec w.director).1 = .ok task → task.state.isDone = false

theorem Turn.waiting {action : Action} (turn : Turn d details may w action w') (tenancy : Tenancy w)
    (mem : i ∈ w.records.instances) (marked : i.deprovisionTask = some token)
    (undone : Undone d w token) : i ∈ w'.records.instances := by
  have apart {id : String} {j : Instance}
      (found : w.records.instances.find? (·.id = id) = some j) (stays : j.deprovisionTask = none) :
      i.id ≠ id := by
    intro same
    obtain rfl := tenancy.eq_of_found mem found same
    exact nomatch marked.symm.trans stays
  cases turn with
  | provision outcome =>
    cases outcome with
    | refused | notStarted | unrecorded => exact mem
    | joined plan live _ _ id_new => exact MemoryStore.mem_putInstance.mpr (.inl ⟨mem, id_new i mem⟩)
    | recorded p => exact MemoryStore.mem_putInstance.mpr (.inl ⟨mem, p.id_new i mem⟩)
  | deprovision outcome =>
    cases outcome with
    | unchanged | notDeleted | unmarked => exact mem
    | left j other x asked found stays =>
      exact MemoryStore.mem_removeInstance.mpr ⟨mem, apart found stays⟩
    | marked p =>
      have other := apart p.found p.stays
      rw [← (MemoryStore.mem_of_find p.found).2] at other
      exact MemoryStore.mem_putInstance.mpr (.inl ⟨mem, other⟩)
  | looked outcome =>
    obtain ⟨x, _, rfl⟩ := outcome.asked
    exact mem
  | @completed id _ _ _ _ _ looked completes outcome =>
    obtain ⟨asked, j, task, _, found, waits, told, done⟩ := looked.deletion completes
    obtain ⟨x, _, rfl⟩ := looked.asked
    -- The poll that drops the record would have been told that its deletion is done.
    have other : i.id ≠ id := by
      intro same
      obtain rfl := tenancy.eq_of_found mem found same
      obtain rfl : asked = token := Option.some.inj (waits.symm.trans marked)
      exact nomatch done.symm.trans (undone task told)
    cases outcome with
    | failed | absent => exact mem
    | stranded | shared | freed => exact MemoryStore.mem_removeInstance.mpr ⟨mem, other⟩
  | bind outcome => cases outcome <;> exact mem
  | unbind outcome => cases outcome <;> exact mem
  | refresh outcome => cases outcome <;> exact mem

theorem Change.waiting {e : Event μ} (change : Change d details may w move e w')
    (tenancy : Tenancy w) (mem : i ∈ w.records.instances)
    (marked : i.deprovisionTask = some token) (undone : Undone d w token) :
    i ∈ w'.records.instances := by
  cases change with
  | acted turn => exact turn.waiting tenancy mem marked undone
  | restarted found => cases found; exact mem
  | stayed | moved | broken | mended => exact mem

/-- The instance is still there, its network is not free, and nothing can be put up under the name of
its deployment, whatever calls fail. -/
structure Wedged (d : Director δ) (details : DirectorDetails) (w : Broker δ MemoryStore)
    (i : Instance) : Prop where
  recorded : i ∈ w.records.instances
  taken : i.network ∉ w.pool.available
  refused : ∀ id (request : Request) accepts choice now plan,
    Plan.resolve? request.serviceId request.planId = some plan →
      plan.deployment id = i.deployment →
        Yields (fun _ => True) (provision (inMemory d details) id request accepts choice now) w
          fun result w' => (∃ e, result = .error e) ∧ w' = w

theorem Tenancy.wedged (tenancy : Tenancy w) (parting : Parting w)
    (mem : i ∈ w.records.instances) (marked : i.deprovisionTask = some token) :
    Wedged d details w i where
  recorded := mem
  taken := tenancy.taken i mem
  refused id request accepts choice now plan resolved named := by
    refine (provision_yields id request accepts choice now).mono fun result w' outcome => ?_
    have same {other : Plan}
        (resolved' : Plan.resolve? request.serviceId request.planId = some other) :
        i.deployment = other.deployment id := by
      obtain rfl := Option.some.inj (resolved.symm.trans resolved')
      exact named.symm
    cases outcome with
    | refused e => exact ⟨⟨e, rfl⟩, rfl⟩
    | joined other live resolved' _ _ recorded on stays =>
      -- Nobody is on the deployment beside the one that waits, and that one is not joined.
      obtain rfl := parting i mem (marked ▸ nofun) live recorded (on.trans (same resolved').symm)
      simp [Instance.isDeprovisioning, marked] at stays
    | notStarted p | unrecorded p | recorded p =>
      exact absurd (same p.resolved) (p.deployment_new i mem)

structure Repeated (d : Director δ) (details : DirectorDetails)
    (reach : List (Event μ) → Broker (δ × List String) MemoryStore) (events : List (Event μ))
    (i : Instance) (token : String) : Prop where
  answered : ∀ now, (deprovision (inMemory d.recording details) i.id true now).exec
      ((reach events).again (reach events).director) =
    (.ok (.deleting token), (reach events).again (reach events).director)
  honours_iff : ∀ now,
    Honours d details ((reach events).again (reach events).director) i token now ↔
      ∀ task, ((d.recording.task token).exec (reach events).director).1 = .ok task →
        task.state.isOther = false
  wedged : ∀ more, (∀ part, part <+: more → Undone d.recording (reach (events ++ part)) token) →
    Wedged d.recording details (reach (events ++ more)) i

/-- A request to delete an instance again gets the token of the deletion that the instance waits for,
whatever has become of it. That is as it should be unless the deletion failed. -/
theorem run_repeated_deletion (d : Director δ) (details : DirectorDetails) (move : μ → δ → δ)
    (networks : List String) (x : δ) (events : List (Event μ)) :
    let reach (part : List (Event μ)) :=
      (run (inMemory d details) move (fresh networks x) part).settled
    let noted (part : List (Event μ)) :=
      (run (inMemory d.recording details) (Director.unnoted move) (fresh networks (x, []))
        part).settled
    (noted events).forget = reach events ∧
    ∀ i ∈ (noted events).records.instances, ∀ token, i.deprovisionTask = some token →
      Repeated d details noted events i token := by
  intro reach noted
  have tenancy (part : List (Event μ)) : Tenancy (noted part) := .run networks (x, []) part
  have parting (part : List (Event μ)) : Parting (noted part) := .run networks (x, []) part
  refine ⟨?_, fun i mem token marked => ?_⟩
  · exact congrArg settled (forget_run (inMemory d details) move (fresh networks (x, [])) events)
  · refine ⟨fun now => exec_deprovision_waiting (tenancy events) mem marked now _,
      fun now => honours_iff (tenancy events) mem marked now, fun more undone => ?_⟩
    -- The induction is on what happens later. Each event leaves the waiting record alone.
    have stays : i ∈ (noted (events ++ more)).records.instances := by
      induction more using List.reverseRecOn with
      | nil => simpa using mem
      | append_singleton more e ih =>
        have old := ih fun part inside => undone part (inside.trans (List.prefix_append _ _))
        have change := change_run d.recording details (Director.unnoted move) networks (x, [])
          (events ++ more) e
        rw [List.append_assoc] at change
        exact change.waiting (tenancy _) old marked (undone more (List.prefix_append _ _))
    exact (tenancy _).wedged (parting _) stays marked

section Failed

open SimulatedDirector (faulty)

def failedDeletion : List (Event SimulatedDirector.Move) := [
  .act (.provision "a" (orderOf .permissionless) true 0 firstDay),
  .move (.setTaskState "1" .done),
  .act (.deprovision "a" true firstDay),
  .move (.setTaskState "2" (.other "error"))]

def afterFailedDeletion : Broker (Director.Outages SimulatedDirector × List String) MemoryStore :=
  (run (inMemory faulty.recording someDetails) (Director.unnoted SimulatedDirector.Move.apply)
    (fresh ["net1"] (SimulatedDirector.idle false false, [])) failedDeletion).settled

def undeleted : Instance :=
  (Instance.new "a" "fabric-a" "net1" "1" (orderOf .permissionless) firstDay).markDeprovisioning "2"
    firstDay

theorem failed_deletion_not_repeated :
    afterFailedDeletion.records.instances = [undeleted] ∧
      afterFailedDeletion.director.2 = ["fabric-a"] ∧
      afterFailedDeletion.pool.available = [] ∧
      (deprovision (inMemory faulty.recording someDetails) "a" true firstDay).exec
          (afterFailedDeletion.again afterFailedDeletion.director) =
        (.ok (.deleting "2"), afterFailedDeletion.again afterFailedDeletion.director) ∧
      ¬Honours faulty someDetails (afterFailedDeletion.again afterFailedDeletion.director) undeleted
        "2" firstDay := by
  have recorded : afterFailedDeletion.records.instances = [undeleted] := by decide +kernel
  have mem : undeleted ∈ afterFailedDeletion.records.instances := recorded ▸ List.mem_cons_self
  have tenancy : Tenancy afterFailedDeletion := .run ["net1"] _ failedDeletion
  refine ⟨recorded, by decide +kernel, by decide +kernel,
    exec_deprovision_waiting tenancy mem rfl firstDay _, fun honours => ?_⟩
  have failed : ((faulty.recording.task "2").exec afterFailedDeletion.director).1.toOption =
      some ⟨2, .other "error", "delete deployment fabric-a", none, "admin"⟩ := by decide +kernel
  have unfailed := (honours_iff tenancy mem rfl firstDay).mp honours _ (Call.ok_of_toOption failed)
  cases unfailed

end Failed

end Broker

end LedgerBroker
