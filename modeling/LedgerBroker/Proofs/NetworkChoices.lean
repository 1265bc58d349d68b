import LedgerBroker.Proofs.RenamedOperations

set_option autoImplicit false

namespace LedgerBroker

namespace Broker

open SimulatedDirector (faulty)
open Step

section React

variable {δ σ μ : Type}

/-- What a broker makes of an event: its answer, and where it stands afterwards. -/
def react (s : Services δ (Store.Outages σ)) (move : μ → δ → δ) (b : Broker δ (Store.Outages σ)) :
    Event μ → Except BrokerError Success × Broker δ (Store.Outages σ)
  | .act action => respond s b action
  | .restart networks =>
    match (refresh s).exec (start networks b.director b.records) with
    | (.ok (), b') => (.ok .done, b')
    | (.error e, _) => (.error e, b)
  | .move m => (.ok .done, { b with director := move m b.director })
  | .storeBreaks kind after =>
    (.ok .done, { b with records := b.records.announce ⟨kind, after, .broken⟩ })
  | .storeMends kind => (.ok .done, { b with records := b.records.mend kind })

def reactions (s : Services δ (Store.Outages σ)) (move : μ → δ → δ) :
    Broker δ (Store.Outages σ) → List (Event μ) →
      List (Except BrokerError Success × Broker δ (Store.Outages σ))
  | _, [] => []
  | b, e :: rest =>
    let after := react s move b e
    after :: reactions s move after.2 rest

def Action.unchosen : Action → Action
  | .provision id request accepts _ now => .provision id request accepts 0 now
  | action => action

def Event.unchosen : Event μ → Event μ
  | .act action => .act action.unchosen
  | event => event

theorem respond_perform (s : Services δ (Store.Outages MemoryStore))
    (b : Broker δ (Store.Outages MemoryStore)) (action : Action) :
    (respond s b action).2 = perform s b action := by
  have mapped {α : Type} (f : α → Success) (x : Step δ (Store.Outages MemoryStore) α) :
      ((f <$> x).exec b).2 = (x.exec b).2 := by
    rw [map_eq_pure_bind, Call.exec_bind]
    cases (x.exec b).1 <;> rfl
  cases action <;> exact mapped _ _

theorem react_happen (s : Services δ (Store.Outages MemoryStore)) (move : μ → δ → δ)
    (b : Broker δ (Store.Outages MemoryStore)) (e : Event μ) :
    (react s move b e).2 = happen s move b e := by
  cases e with
  | act action => exact respond_perform s b action
  | restart networks =>
    simp only [react, happen]
    split <;> simp_all
  | move | storeBreaks | storeMends => rfl

end React

section Beside

variable {α : Type} {π : Equiv.Perm String} {networks : List String}
  {listing : MemoryStore.Listing} {details : DirectorDetails}
  {b : Shuffled} {w : Ordered}

/-- The answers are the same, and the brokers have come to the same state under some names. -/
structure SameBeside (networks : List String) (t : Except BrokerError Success × Shuffled)
    (t' : Except BrokerError Success × Ordered) : Prop where
  answer : t.1 = t'.1
  state : Matched networks t.2 t'.2

theorem respond_beside (shifted : Shifted networks π b w) (ready : Ready w) (action : Action) :
    SameBeside networks (respond (anyOrder listing details) b action)
      (respond (inMemory faulty details) w action.unchosen) := by
  have replied {α : Type}
      {x : Step (Director.Outages SimulatedDirector) (Store.Outages ShuffledStore) α}
      {y : Step (Director.Outages SimulatedDirector) (Store.Outages MemoryStore) α}
      (f : α → Success)
      (steps : Call.Lockstep (Shifted networks π) (Matched networks) Eq x w y) :
      SameBeside networks ((f <$> x).exec b) ((f <$> y).exec w) := by
    obtain ⟨alike, after⟩ := steps.map (fun _ _ same => congrArg f same) b shifted
    exact ⟨alike.eq, after⟩
  cases action with
  | provision id request accepts choice now =>
    exact replied _ (provision_matched ready accepts)
  | deprovision id accepts now =>
    exact replied _ ((deprovision_echoes id accepts now).mono Shifted.matched)
  | lastOperation id operation =>
    exact replied _ ((lastOperation_echoes id operation).mono Shifted.matched)
  | bind id bindingId request now =>
    exact replied _ ((bind_echoes id bindingId request now).mono Shifted.matched)
  | unbind id bindingId => exact replied _ ((unbind_echoes id bindingId).mono Shifted.matched)
  | refresh => exact replied _ (refresh_echoes.mono Shifted.matched)

theorem Shifted.start (shifted : Shifted networks π b w) :
    Shifted networks π (start networks b.director b.records)
      (start networks w.director w.records) :=
  { shifted with
    configured := rfl
    renames := { shifted.renames with pool := .new shifted.permutes } }

theorem renames_moved {x y : Director.Outages SimulatedDirector}
    (renames : Unreliable.Both (SimulatedDirector.Renames π) x y) (m : SimulatedDirector.Move) :
    Unreliable.Both (SimulatedDirector.Renames π) (m.apply x) (m.apply y) := by
  cases m with
  | setTaskState token state => exact ⟨renames.service.setTaskState token state, renames.outages⟩
  | removeDeployment name => exact ⟨renames.service.removeDeployment name, renames.outages⟩
  | breaks kind after fault => exact renames.announce _
  | mends kind => exact renames.mend kind

theorem react_beside (shifted : Shifted networks π b w) (ready : Ready w)
    (e : Event SimulatedDirector.Move) (same : ∀ other, e = .restart other → other = networks) :
    SameBeside networks (react (anyOrder listing details) SimulatedDirector.Move.apply b e)
      (react (inMemory faulty details) SimulatedDirector.Move.apply w e.unchosen) := by
  cases e with
  | act action => exact respond_beside shifted ready action
  | restart other =>
    obtain rfl := same other rfl
    have steps : Echoes other π Eq (refresh (anyOrder listing details))
        (start other w.director w.records) (refresh (inMemory faulty details)) := refresh_echoes
    obtain ⟨alike, after⟩ := steps _ shifted.start
    simp only [react, Event.unchosen]
    generalize (refresh (anyOrder listing details)).exec (start other b.director b.records) = done
      at alike after ⊢
    generalize (refresh (inMemory faulty details)).exec (start other w.director w.records) = done'
      at alike after ⊢
    obtain ⟨result, b'⟩ := done
    obtain ⟨result', w'⟩ := done'
    -- A new broker takes over on both sides, or on neither.
    cases alike with
    | ok => exact ⟨rfl, π, after⟩
    | error e => exact ⟨rfl, π, shifted⟩
  | move m =>
    refine ⟨rfl, π, { shifted with renames := { shifted.renames with director := ?_ } }⟩
    exact renames_moved shifted.renames.director m
  | storeBreaks kind after =>
    refine ⟨rfl, π, { shifted with renames := { shifted.renames with records := ?_ } }⟩
    exact shifted.renames.records.announce _
  | storeMends kind =>
    refine ⟨rfl, π, { shifted with renames := { shifted.renames with records := ?_ } }⟩
    exact shifted.renames.records.mend kind

theorem Ready.react (ready : Ready w) (e : Event SimulatedDirector.Move) :
    Ready (Broker.react (inMemory faulty details) SimulatedDirector.Move.apply w e).2 := by
  rw [react_happen]
  have keeps : Keeps faulty details (fun _ => True) SimulatedDirector.Move.apply [e]
      (fun w => Coherent w ∧ Tidy w) := Tidy.keeps [e]
  obtain ⟨breaks, coherent, tidy⟩ :=
    happen_keeps keeps List.mem_cons_self ready.breaks ⟨ready.coherent, ready.tidy⟩
  exact ⟨breaks, coherent, tidy⟩

theorem reactions_beside {events : List (Event SimulatedDirector.Move)}
    (same : Traced.SameNetworks networks events) (matched : Matched networks b w)
    (ready : Ready w) :
    List.Forall₂ (SameBeside networks)
      (reactions (anyOrder listing details) SimulatedDirector.Move.apply b events)
      (reactions (inMemory faulty details) SimulatedDirector.Move.apply w
        (events.map Event.unchosen)) := by
  induction events generalizing b w with
  | nil => exact .nil
  | cons e rest ih =>
    obtain ⟨π, shifted⟩ := matched
    have turn : SameBeside networks
        (react (anyOrder listing details) SimulatedDirector.Move.apply b e)
        (react (inMemory faulty details) SimulatedDirector.Move.apply w e.unchosen) :=
      react_beside shifted ready e fun other restarts => same other (restarts ▸ List.mem_cons_self)
    -- The names may have changed in this turn; those it ends with are the next one's.
    exact .cons turn (ih (fun other mem => same other (List.mem_cons_of_mem _ mem)) turn.state
      (ready.react e.unchosen))

/-- The answers are the same, and so are the states but for the names of the networks. -/
structure SameButNames (networks : List String) (t t' : Except BrokerError Success × Shuffled) :
    Prop where
  answer : t.1 = t'.1
  state : ∃ π, Permutes networks π ∧ Renames π t'.2.unshuffled t.2.unshuffled

theorem permutes_new : Permutes (NetworkPool.new networks).configured π ↔ Permutes networks π := by
  simp [Permutes, NetworkPool.new]

theorem unmixed_new : Unmixed (NetworkPool.new networks).configured ↔ Unmixed networks := by
  simp [Unmixed, NetworkPool.new]

theorem SameBeside.compare {t t' : Except BrokerError Success × Shuffled}
    {u : Except BrokerError Success × Ordered} (left : SameBeside networks t u)
    (right : SameBeside networks t' u) :
    SameButNames networks t t' := by
  obtain ⟨π, shifted⟩ := left.state
  obtain ⟨ρ, shifted'⟩ := right.state
  -- Back from the first run to the one without choices, and on from there to the second.
  have permutes := shifted.permutes.symm.trans shifted'.permutes
  exact ⟨left.answer.trans right.answer.symm, _, permutes_new.mp permutes,
    shifted.renames.compare shifted'.renames⟩

end Beside

section Choices

variable {networks : List String} {details : DirectorDetails}

def freshAnyOrder (networks : List String) (fails atOnce : Bool) : Shuffled :=
  start networks (SimulatedDirector.idle fails atOnce) ⟨{}, []⟩

theorem matched_fresh (unmixed : Unmixed networks) (fails atOnce : Bool) :
    Matched networks (freshAnyOrder networks fails atOnce)
      (fresh networks (SimulatedDirector.idle fails atOnce)) := by
  have permutes := Permutes.refl (NetworkPool.new networks).configured
  refine ⟨Equiv.refl String, unmixed_new.mpr unmixed, permutes, rfl, ?_⟩
  exact ⟨.new permutes, ⟨⟨rfl, fun name => rfl⟩, rfl⟩, ⟨rfl, rfl⟩⟩

theorem sameNetworks_unchosen {events : List (Event SimulatedDirector.Move)} :
    Traced.SameNetworks networks (events.map Event.unchosen) ↔
      Traced.SameNetworks networks events := by
  have kept (e : Event SimulatedDirector.Move) (other : List String) :
      e.unchosen = .restart other ↔ e = .restart other := by
    cases e <;> simp [Event.unchosen]
  simp [Traced.SameNetworks, kept]

theorem forall₂_compare {l l' : List (Except BrokerError Success × Shuffled)}
    {m : List (Except BrokerError Success × Ordered)}
    (left : List.Forall₂ (SameBeside networks) l m)
    (right : List.Forall₂ (SameBeside networks) l' m) :
    List.Forall₂ (SameButNames networks) l l' := by
  induction left generalizing l' with
  | nil =>
    cases right
    exact .nil
  | cons first _ ih =>
    cases right with
    | cons first' rest' => exact .cons (first.compare first') (ih rest')

theorem reactions_alike (unmixed : Unmixed networks) (fails atOnce : Bool)
    (listing listing' : MemoryStore.Listing) {events events' : List (Event SimulatedDirector.Move)}
    (same : Traced.SameNetworks networks events)
    (chosen : events.map Event.unchosen = events'.map Event.unchosen) :
    List.Forall₂ (SameButNames networks)
      (reactions (anyOrder listing details) SimulatedDirector.Move.apply
        (freshAnyOrder networks fails atOnce) events)
      (reactions (anyOrder listing' details) SimulatedDirector.Move.apply
        (freshAnyOrder networks fails atOnce) events') := by
  have ready : Ready (fresh networks (SimulatedDirector.idle fails atOnce)) :=
    ⟨fresh_breaks _ _ _, .start networks fails atOnce, .start networks fails atOnce⟩
  have same' : Traced.SameNetworks networks events' := by
    rw [← sameNetworks_unchosen, chosen, sameNetworks_unchosen] at same
    exact same
  have matched := matched_fresh unmixed fails atOnce
  refine forall₂_compare (reactions_beside same matched ready) ?_
  rw [chosen]
  exact reactions_beside same' matched ready

theorem acquire_new {n : String} (configured : n ∈ networks) :
    ∃ choice pool, (NetworkPool.new networks).acquire choice = .ok (n, pool) := by
  have mem : n ∈ (NetworkPool.new networks).available := by simpa [NetworkPool.new] using configured
  obtain ⟨choice, inside, same⟩ := List.mem_iff_getElem.mp mem
  have found : (NetworkPool.new networks).available[choice]? = some n :=
    same ▸ List.getElem?_eq_getElem inside
  let pool := { NetworkPool.new networks with
    available := (NetworkPool.new networks).available.filter (· ≠ n) }
  refine ⟨choice, pool, ?_⟩
  rw [NetworkPool.acquire, Nat.mod_eq_of_lt inside, found]

theorem respond_fresh (details : DirectorDetails) {n : String} {choice : Nat} {pool : NetworkPool}
    (taken : (NetworkPool.new networks).acquire choice = .ok (n, pool)) (atOnce : Bool) :
    (respond (anyOrder .stored details) (freshAnyOrder networks false atOnce)
      (.provision "a" (orderOf .permissioned) true choice firstDay)).1 =
        if n = "" then .error (.dbSave "NetworkName cannot be empty")
        else .ok (.token (Numeral.decimal 1)) := by
  -- What is looked up first finds nothing: the store is empty, and no orphan is known.
  let asked : Shuffled := ⟨.new networks, SimulatedDirector.idle false atOnce, ⟨⟨{}, 1⟩, []⟩⟩
  have leads : (provision (anyOrder .stored details) "a" (orderOf .permissioned) true choice
      firstDay).exec (freshAnyOrder networks false atOnce) =
      (deploy (anyOrder .stored details) "a" .permissioned (orderOf .permissioned) choice
        firstDay).exec asked :=
    exec_provision_dedicated (resolve_orderOf .permissioned) rfl rfl rfl
  let task : Task := {
    id := 1
    state := if atOnce then .done else .queued
    description := "create deployment fabric-a"
    result := none
    user := "admin" }
  have created : ((anyOrder .stored details).director.createDeployment (Manifest.render
      (Plan.permissioned.deployment "a") n Plan.permissioned.isPermissioned details)).exec
      asked.director = (.ok task, _) := rfl
  rw [respond, map_eq_pure_bind]
  split
  next unnamed =>
    subst unnamed
    let i := Instance.new "a" "fabric-a" "" task.token (orderOf .permissioned) firstDay
    have unsaved : ((anyOrder .stored details).store.saveInstance i).exec asked.records =
        (.error (.ofRecordFault .emptyNetwork), asked.records) := rfl
    have lost := exec_deploy_unsaved (s := anyOrder .stored details) taken created unsaved
    exact congrArg Prod.fst (Call.exec_bind_error (leads.trans lost))
  next named =>
    let i := Instance.new "a" "fabric-a" n task.token (orderOf .permissioned) firstDay
    have filled : "a" ≠ "" ∧ "fabric-a" ≠ "" := by decide
    have valid : i.validate = .ok () :=
      Instance.validate_eq_ok.mpr ⟨filled.1, filled.2, named, filled.1⟩
    have saved : ((anyOrder .stored details).store.saveInstance i).exec asked.records =
        (.ok (), ⟨⟨MemoryStore.putInstance {} i, 1⟩, []⟩) := by
      simp [Store.unreliable, Unreliable.guard, Unreliable.meet, asked, ShuffledStore.store,
        ShuffledStore.onRecords, MemoryStore.store, MemoryStore.save, valid, Except.mapError]
    have kept := exec_deploy_saved (s := anyOrder .stored details) taken created saved
    exact congrArg Prod.fst (Call.exec_bind_ok (leads.trans kept))

/-- Two runs in which the same happens, but other free networks are taken and the instances are listed
in other orders, cannot be told apart but for the names of the networks, just if every configured
network has a name or none has one. -/
theorem choices_invisible_iff (details : DirectorDetails) (networks : List String) :
    Unmixed networks ↔
      ∀ (fails atOnce : Bool) (listing listing' : MemoryStore.Listing)
        (events events' : List (Event SimulatedDirector.Move)),
        Traced.SameNetworks networks events →
        events.map Event.unchosen = events'.map Event.unchosen →
        List.Forall₂ (SameButNames networks)
          (reactions (anyOrder listing details) SimulatedDirector.Move.apply
            (freshAnyOrder networks fails atOnce) events)
          (reactions (anyOrder listing' details) SimulatedDirector.Move.apply
            (freshAnyOrder networks fails atOnce) events') := by
  constructor
  · intro unmixed fails atOnce listing listing' events events' same chosen
    exact reactions_alike unmixed fails atOnce listing listing' same chosen
  · rintro alike n configured m configured' rfl
    by_contra named
    -- One provision is enough: it takes the network without a name here, the other one there.
    obtain ⟨choice, _, taken⟩ := acquire_new configured
    obtain ⟨choice', _, taken'⟩ := acquire_new configured'
    have refused := respond_fresh details taken false
    have accepted := respond_fresh details taken' false
    rw [if_pos rfl] at refused
    rw [if_neg named] at accepted
    have runs := alike false false .stored .stored
      [.act (.provision "a" (orderOf .permissioned) true choice firstDay)]
      [.act (.provision "a" (orderOf .permissioned) true choice' firstDay)]
      (by simp [Traced.SameNetworks]) rfl
    cases runs with
    | cons first _ => exact nomatch refused.symm.trans (first.answer.trans accepted)

def recordedNetworks (t : Except BrokerError Success × Shuffled) : List String :=
  t.2.records.service.records.instances.map (·.network)

theorem recordedNetworks_renamed {π : Equiv.Perm String}
    {l l' : List (Except BrokerError Success × Shuffled)}
    (renames : List.Forall₂ (fun t t' => Renames π t'.2.unshuffled t.2.unshuffled) l l') :
    l'.map recordedNetworks = (l.map recordedNetworks).map (·.map π) := by
  induction renames with
  | nil => rfl
  | @cons t t' _ _ first _ ih =>
    have records : t'.2.records.service.records = t.2.records.service.records.rename π :=
      first.records.service
    have same : recordedNetworks t' = (recordedNetworks t).map π := by
      simp [recordedNetworks, records, MemoryStore.rename]
    rw [List.map_cons, List.map_cons, List.map_cons, same, ih]

def reactionsOn (networks : List String) (events : List (Event SimulatedDirector.Move)) :
    List (Except BrokerError Success × Shuffled) :=
  reactions (anyOrder .stored someDetails) SimulatedDirector.Move.apply
    (freshAnyOrder networks false true) events

def provisionOn (choice : Nat) : Event SimulatedDirector.Move :=
  .act (.provision "a" (orderOf .permissioned) true choice firstDay)

def comeBack (choice : Nat) : List (Event SimulatedDirector.Move) := [
  provisionOn 0,
  .act (.deprovision "a" true firstDay),
  .act (.lastOperation "a" (some "2")),
  provisionOn choice]

theorem choices_show :
    (reactionsOn ["net1", ""] [provisionOn 0]).map (Call.failure? ·.1) = [none] ∧
    (reactionsOn ["net1", ""] [provisionOn 1]).map (Call.failure? ·.1) =
      [some (.dbSave "NetworkName cannot be empty")] ∧
    ¬∃ π, List.Forall₂ (fun t t' => Renames π t'.2.unshuffled t.2.unshuffled)
      (reactionsOn ["net1", "net2"] (comeBack 1)) (reactionsOn ["net1", "net2"] (comeBack 0)) := by
  refine ⟨by decide +kernel, by decide +kernel, ?_⟩
  rintro ⟨π, renames⟩
  have same := recordedNetworks_renamed renames
  have stayed : (reactionsOn ["net1", "net2"] (comeBack 1)).map recordedNetworks =
      [["net1"], ["net1"], [], ["net1"]] := by decide +kernel
  have moved : (reactionsOn ["net1", "net2"] (comeBack 0)).map recordedNetworks =
      [["net1"], ["net1"], [], ["net2"]] := by decide +kernel
  rw [stayed, moved] at same
  simp only [List.map_cons, List.map_nil, List.cons.injEq, and_true, true_and] at same
  obtain ⟨first, -, last⟩ := same
  exact absurd (first.trans last.symm) (by decide)

end Choices

end Broker

end LedgerBroker
