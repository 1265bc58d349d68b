import LedgerBroker.Proofs.Bookkeeping
import LedgerBroker.Proofs.BoundInstances

set_option autoImplicit false

namespace LedgerBroker

namespace Broker

open SimulatedDirector (faulty)

variable {details : DirectorDetails} {may : Store.CallKind → Prop} {networks : List String}
  {w w' : Broker (Director.Outages SimulatedDirector × List String) MemoryStore}
  {e : Event SimulatedDirector.Move}

/-- The Director is told to create nothing, or one deployment that it does not have and that no
instance is recorded on. -/
inductive Creates (w w' : Broker (Director.Outages SimulatedDirector × List String) MemoryStore) :
    Prop
  | nothing (same : w'.director.2 = w.director.2)
  | one (m : Manifest)
      (told : w'.director = ((faulty.chronicle.createDeployment m).exec w.director).2)
      (absent : m.name ∉ w.director.1.service.deployments)
      (unrecorded : ∀ i ∈ w.records.instances, i.deployment ≠ m.name)

theorem Placement.absent {id : String} {request : Request} {choice : Nat}
    (p : Placement w id request choice) (coherent : Coherent w.forget)
    (traced : Traced networks w.forget) : p.deployment ∉ w.director.1.service.deployments := by
  intro there
  -- What runs is on a network, and so it is recorded or an orphan; the broker asks about both.
  obtain ⟨n, on⟩ := (coherent.serves.listed p.deployment).mp there
  rcases traced.known p.deployment n on with ⟨i, recorded, same⟩ | orphan
  · exact p.deployment_new i recorded same
  · exact NetworkPool.ne_of_not_isOrphaned p.not_orphaned orphan rfl

theorem Placement.creates {id : String} {request : Request} {choice : Nat}
    (p : Placement w id request choice) (coherent : Coherent w.forget)
    (traced : Traced networks w.forget) (told : w'.director =
      ((faulty.chronicle.createDeployment (p.manifest details)).exec w.director).2) :
    Creates w w' :=
  .one (p.manifest details) told (p.absent coherent traced) p.deployment_new

theorem Change.creates
    (change : Change faulty.chronicle details may w
      (Director.unnoted SimulatedDirector.Move.apply) e w')
    (coherent : Coherent w.forget) (traced : Traced networks w.forget) : Creates w w' := by
  have still {x : Director.Outages SimulatedDirector × List String}
      (asked : faulty.chronicle.Asked w.director x) : x.2 = w.director.2 :=
    (Director.chronicle_notes faulty).of_asked asked
  cases change with
  | restarted found =>
    cases found with
    | refreshed _ _ x asked => exact .nothing (still asked)
  | stayed | moved | broken | mended => exact .nothing rfl
  | acted turn =>
    cases turn with
    | provision outcome =>
      cases outcome with
      | refused | joined => exact .nothing rfl
      -- However the provision ends, the Director was told after the place was looked up.
      | notStarted p | unrecorded p | recorded p => exact p.creates coherent traced rfl
    | deprovision outcome =>
      cases outcome with
      | unchanged _ x asked | left _ _ x asked => exact .nothing (still asked)
      | notDeleted p x asked | unmarked p x asked | marked p x asked =>
        have same : x.2 = w.director.2 := still asked
        exact .nothing same
    | looked outcome =>
      obtain ⟨x, asked, rfl⟩ := outcome.asked
      exact .nothing (still asked)
    | completed looked _ outcome =>
      obtain ⟨x, asked, rfl⟩ := looked.asked
      cases outcome <;> exact .nothing (still asked)
    | bind outcome =>
      cases outcome with
      | refused e x asked | bound _ _ _ x asked => exact .nothing (still asked)
    | unbind outcome => cases outcome <;> exact .nothing rfl
    | refresh outcome =>
      cases outcome with
      | failed e x asked | refreshed _ _ x asked => exact .nothing (still asked)

/-- As long as the networks stay the same, whatever fails and whatever the Director does of its own
accord, no deployment is created that is there, and none that an instance is recorded on. -/
theorem run_creates_fresh (details : DirectorDetails) (networks : List String)
    (fails atOnce : Bool) {events : List (Event SimulatedDirector.Move)}
    (same : Traced.SameNetworks networks events) :
    let idle := SimulatedDirector.idle fails atOnce
    let reach (part : List (Event SimulatedDirector.Move)) :=
      (run (inMemory faulty details) SimulatedDirector.Move.apply
        (fresh networks idle) part).settled
    let noted (part : List (Event SimulatedDirector.Move)) :=
      (run (inMemory faulty.chronicle details) (Director.unnoted SimulatedDirector.Move.apply)
        (fresh networks (idle, [])) part).settled
    (noted events).forget = reach events ∧
    ∀ before e, before ++ [e] <+: events → Creates (noted before) (noted (before ++ [e])) := by
  intro idle reach noted
  have forgets (part : List (Event SimulatedDirector.Move)) : (noted part).forget = reach part :=
    congrArg settled (forget_notes (inMemory faulty details) faulty.chronicle_notes
      SimulatedDirector.Move.apply (fresh networks (idle, [])) part)
  refine ⟨forgets events, fun before e inside => ?_⟩
  have same : Traced.SameNetworks networks before := fun other mem =>
    same other (inside.subset (List.mem_append_left _ mem))
  have coherent : Coherent (noted before).forget := by
    rw [forgets]
    exact .run networks fails atOnce before
  have traced : Traced networks (noted before).forget := by
    rw [forgets]
    exact .run same fails atOnce
  exact (change_run faulty.chronicle details _ networks (idle, []) before e).creates coherent traced

section Sample

def lostAndShared : List (Event SimulatedDirector.Move) := [
  .storeBreaks .saveInstance 0,
  .act (.provision "a" (orderOf .permissionless) true 0 firstDay),
  .storeMends .saveInstance,
  .restart ["net1", "net2"],
  .act (.provision "a" (orderOf .permissionless) true 0 firstDay),
  .act (.provision "b" (orderOf .sharedPermissioned) true 0 firstDay),
  .act (.provision "c" (orderOf .sharedPermissioned) true 0 firstDay)]

theorem run_creates_fresh_lostAndShared :
    let noted (part : List (Event SimulatedDirector.Move)) :=
      (run (inMemory faulty.chronicle someDetails) (Director.unnoted SimulatedDirector.Move.apply)
        (fresh ["net1", "net2"] (SimulatedDirector.idle false false, [])) part).settled
    (noted lostAndShared).director.2 = ["fabric-shared-permissioned", "fabric-a"] ∧
    ∀ before e, before ++ [e] <+: lostAndShared →
      Creates (noted before) (noted (before ++ [e])) := by
  have same : Traced.SameNetworks ["net1", "net2"] lostAndShared := by
    intro other mem
    simpa [lostAndShared] using mem
  exact ⟨by decide +kernel, (run_creates_fresh someDetails ["net1", "net2"] false false same).2⟩

end Sample

end Broker

end LedgerBroker
