import LedgerBroker.Proofs.Bookkeeping
import LedgerBroker.Proofs.Interchange
import LedgerBroker.Proofs.Renaming

set_option autoImplicit false

namespace LedgerBroker

namespace NetworkPool

theorem acquire_cases (p : NetworkPool) (choice : Nat) :
    (p.available = [] ∧ p.acquire choice = .error .networkUnavailable) ∨
      ∃ n ∈ p.available,
        p.acquire choice = .ok (n, { p with available := p.available.filter (· ≠ n) }) := by
  by_cases none : p.available = []
  · exact .inl ⟨none, by simp [acquire, none]⟩
  · have inside : choice % p.available.length < p.available.length :=
      Nat.mod_lt _ (List.length_pos_of_ne_nil none)
    refine .inr ⟨p.available[choice % p.available.length], List.getElem_mem inside, ?_⟩
    simp [acquire, List.getElem?_eq_getElem inside]

end NetworkPool

namespace Broker

open SimulatedDirector (faulty)
open Call (Lockstep)

abbrev Ordered := Broker (Director.Outages SimulatedDirector) (Store.Outages MemoryStore)

abbrev Shuffled := Broker (Director.Outages SimulatedDirector) (Store.Outages ShuffledStore)

variable {α β α' β' : Type} {π ρ : Equiv.Perm String} {networks : List String}

structure Renames (π : Equiv.Perm String) (b w : Ordered) : Prop where
  pool : b.pool.Renames π w.pool
  director : Unreliable.Both (SimulatedDirector.Renames π) b.director w.director
  records : Unreliable.Both (fun s m => s = m.rename π) b.records w.records

def unshuffled (b : Shuffled) : Ordered :=
  ⟨b.pool, b.director, ⟨b.records.service.records, b.records.outages⟩⟩

namespace Renames

variable {a b w : Ordered}

theorem compare (left : Renames π a w) (right : Renames ρ b w) :
    Renames (π.symm.trans ρ) b a where
  pool := by
    refine ⟨right.pool.configured.trans left.pool.configured.symm, fun n => ?_, ?_⟩
    · rw [Equiv.trans_apply, right.pool.available, ← left.pool.available, Equiv.apply_symm_apply]
    · simp [left.pool.orphans, right.pool.orphans]
  director := by
    refine ⟨⟨?_, fun name => ?_⟩, right.director.outages.trans left.director.outages.symm⟩
    · rw [right.director.service.rest, left.director.service.rest]
    · rw [right.director.service.network, left.director.service.network]
      simp [Function.comp_def]
  records := by
    refine ⟨?_, right.records.outages.trans left.records.outages.symm⟩
    rw [right.records.service, left.records.service]
    simp [MemoryStore.rename, Instance.rename]

theorem congr (renames : Renames π b w) (coherent : Coherent w.settled)
    (used : ∀ n, n ∉ w.pool.available → ρ n = π n)
    (free : ∀ n, ρ n ∈ b.pool.available ↔ n ∈ w.pool.available) : Renames ρ b w where
  pool := by
    -- An orphan's network is not free, nor is that of a deployment or of a record below.
    refine ⟨renames.pool.configured, free, renames.pool.orphans.trans ?_⟩
    refine List.map_congr_left fun o mem => ?_
    rw [used o.2 (coherent.withholds.orphans o mem)]
  director := by
    refine ⟨⟨renames.director.service.rest, fun name => ?_⟩, renames.director.outages⟩
    rw [renames.director.service.network]
    cases on : w.director.service.network? name with
    | none => rfl
    | some n => exact congrArg some (used n (coherent.withholds.running name n on)).symm
  records := by
    refine ⟨renames.records.service.trans ?_, renames.records.outages⟩
    refine congrArg (fun l => ({ w.records.service with instances := l } : MemoryStore)) ?_
    refine List.map_congr_left fun i mem => ?_
    rw [Instance.rename, Instance.rename, used i.network (coherent.tenancy.taken i mem)]

end Renames

structure Shifted (networks : List String) (π : Equiv.Perm String) (b : Shuffled) (w : Ordered) :
    Prop where
  unmixed : Unmixed (NetworkPool.new networks).configured
  permutes : Permutes (NetworkPool.new networks).configured π
  configured : w.pool.configured = (NetworkPool.new networks).configured
  renames : Renames π b.unshuffled w

theorem Shifted.pool {b : Shuffled} {w : Ordered} (shifted : Shifted networks π b w) :
    b.pool.Renames π w.pool := shifted.renames.pool

abbrev anyOrder (listing : MemoryStore.Listing) (details : DirectorDetails) :
    Services (Director.Outages SimulatedDirector) (Store.Outages ShuffledStore) :=
  ⟨faulty, (ShuffledStore.store listing).unreliable, details⟩

namespace Step

abbrev Echoes (networks : List String) (π : Equiv.Perm String) (R : α → β → Prop)
    (x : Step (Director.Outages SimulatedDirector) (Store.Outages ShuffledStore) α)
    (w : Ordered)
    (y : Step (Director.Outages SimulatedDirector) (Store.Outages MemoryStore) β) : Prop :=
  Lockstep (Shifted networks π) (Shifted networks π) R x w y

namespace Echoes

variable {R : α → β → Prop}
  {x : Step (Director.Outages SimulatedDirector) (Store.Outages ShuffledStore) α}
  {w : Ordered}
  {y : Step (Director.Outages SimulatedDirector) (Store.Outages MemoryStore) β}

theorem onDirector {call : Call BrokerError (Director.Outages SimulatedDirector) α}
    {call' : Call BrokerError (Director.Outages SimulatedDirector) β}
    (alongside : SimulatedDirector.Alongside π R call w.director call') :
    Echoes networks π R (Step.onDirector call) w (Step.onDirector call') := by
  refine .onPart id alongside (fun _ shifted => shifted.renames.director) ?_
  intro s u v shifted director
  exact { shifted with renames := { shifted.renames with director } }

theorem onStore {call : Call StoreError (Store.Outages ShuffledStore) α}
    {call' : Call StoreError (Store.Outages MemoryStore) β} (rename : String → BrokerError)
    (alongside : ShuffledStore.Alongside π R call w.records call') :
    Echoes networks π R (Step.onStore rename call) w (Step.onStore rename call') := by
  refine .onPart _ alongside ?_ ?_
  · intro s shifted
    exact ⟨shifted.renames.records.service, shifted.renames.records.outages⟩
  · intro s u v shifted records
    exact { shifted with
      renames := { shifted.renames with records := ⟨records.service, records.outages⟩ } }

theorem onPool {f f' : NetworkPool → NetworkPool}
    (renamed : ∀ p q, Permutes q.configured π → p.Renames π q → (f p).Renames π (f' q))
    (kept : ∀ q, (f' q).configured = q.configured) :
    Echoes networks π Eq (Step.onPool f) w (Step.onPool f') := by
  intro b shifted
  have permutes := shifted.configured ▸ shifted.permutes
  refine ⟨.ok rfl, { shifted with configured := ?_, renames := ?_ }⟩
  · exact (kept w.pool).trans shifted.configured
  · exact { shifted.renames with pool := renamed _ _ permutes shifted.renames.pool }

theorem orElseUndo {undo undo' : NetworkPool → NetworkPool} (first : Echoes networks π R x w y)
    (renamed : ∀ p q, Permutes q.configured π → p.Renames π q → (undo p).Renames π (undo' q))
    (kept : ∀ q, (undo' q).configured = q.configured) :
    Echoes networks π R (Step.orElseUndo x undo) w (Step.orElseUndo y undo') :=
  first.tryCatch (fun _ _ after => after) fun e =>
    (onPool renamed kept).bind fun _ _ _ _ _ => .throw e

section Answered

variable {S : α' → β' → Prop} {g : β → α}
  {f : α → Step (Director.Outages SimulatedDirector) (Store.Outages ShuffledStore) α'}
  {f' : β → Step (Director.Outages SimulatedDirector) (Store.Outages MemoryStore) β'}

theorem ask {call : Call StoreError (Store.Outages ShuffledStore) α}
    {call' : Call StoreError (Store.Outages MemoryStore) β}
    (alongside : ShuffledStore.Alongside π (fun a b => a = g b) call w.records call')
    (rest : ∀ b w, Echoes networks π S (f (g b)) w (f' b)) :
    Echoes networks π S (read call >>= f) w (read call' >>= f') :=
  (onStore _ alongside).bind fun _ b w same _ => same ▸ rest b w

theorem tell {call : Call BrokerError (Director.Outages SimulatedDirector) α}
    {call' : Call BrokerError (Director.Outages SimulatedDirector) β}
    (alongside : SimulatedDirector.Alongside π (fun a b => a = g b) call w.director call')
    (rest : ∀ b w, Echoes networks π S (f (g b)) w (f' b)) :
    Echoes networks π S (Step.onDirector call >>= f) w (Step.onDirector call' >>= f') :=
  (onDirector alongside).bind fun _ b w same _ => same ▸ rest b w

end Answered

theorem saveInstance {listing : MemoryStore.Listing} (i : Instance) :
    Echoes networks π Eq
      (save ((ShuffledStore.store listing).unreliable.saveInstance (i.rename π))) w
      (save (MemoryStore.store.unreliable.saveInstance i)) :=
  .assuming fun _ shifted =>
    onStore _ (ShuffledStore.saveInstance_alongside (shifted.permutes.empty shifted.unmixed) i)

end Echoes

end Step

open Step

variable {w w' : Ordered}
  {listing : MemoryStore.Listing} {details : DirectorDetails}

structure Ready (w : Ordered) : Prop where
  breaks : Store.Breaks (fun _ => True) w.records
  coherent : Coherent w.settled
  tidy : Tidy w.settled

theorem Ready.still (ready : Ready w)
    {y : Step (Director.Outages SimulatedDirector) (Store.Outages MemoryStore) α}
    {result : Except BrokerError α} (run : y.exec w = (result, w'))
    (still : Yields (fun _ => True) y w.settled (fun _ v => v = w.settled)) : Ready w' := by
  obtain ⟨breaks, same⟩ := still w rfl ready.breaks
  rw [run] at breaks same
  exact ⟨breaks, same ▸ ready.coherent, same ▸ ready.tidy⟩

theorem uniform_of_coherent {v : Broker (Director.Outages SimulatedDirector) MemoryStore}
    (coherent : Coherent v) : v.records.Uniform := fun i mem j mem' same =>
  have agree := coherent.tenancy.agree i mem j mem'
  ⟨agree.network_iff.mpr same, agree.task same⟩

theorem eq_nil_iff_of_listed {l l' : List Instance} (perm : l.Perm (l'.map (·.rename π))) :
    l = [] ↔ l' = [] :=
  (eq_nil_iff_of_perm perm).trans List.map_eq_nil_iff

theorem joinable_echoes (ready : Ready w) (deployment : String) :
    Echoes networks π (fun live live' => SamePlace live (live'.map (·.rename π)))
      (joinable (anyOrder listing details) deployment) w
      (joinable (inMemory faulty details) deployment) := by
  refine .bind (Echoes.onStore _ (ShuffledStore.instancesOn_alongside deployment))
    fun existing existing' _ listed _ => ?_
  obtain ⟨perm, here⟩ := listed
  have place : ∀ i ∈ existing', i ∈ w.records.service.instances ∧ i.deployment = deployment :=
    fun i mem => by simpa [here] using mem
  have same : SamePlace (existing.find? (!·.isDeprovisioning))
      ((existing'.find? (!·.isDeprovisioning)).map (·.rename π)) := by
    have found := samePlace_of_perm perm (!·.isDeprovisioning) fun i mem j mem' => ?_
    · rwa [List.find?_map] at found
    -- All on one deployment are on one network, and so they are under other names.
    · obtain ⟨i, recorded, rfl⟩ := List.mem_map.mp mem
      obtain ⟨j, recorded', rfl⟩ := List.mem_map.mp mem'
      have ⟨mem, on⟩ := place i recorded
      have ⟨mem', on'⟩ := place j recorded'
      have ⟨network, task⟩ :=
        uniform_of_coherent ready.coherent i mem j mem' (on.trans on'.symm)
      exact ⟨congrArg π network, task⟩
  refine .ite (eq_nil_iff_of_listed perm) (fun _ => .pure trivial) fun _ => ?_
  generalize existing.find? (!·.isDeprovisioning) = live at same
  generalize existing'.find? (!·.isDeprovisioning) = live' at same
  cases live <;> cases live'
  · exact .throw _
  · exact same.elim
  · exact same.elim
  · exact .pure same

theorem isTaken_echoes (deployment : String) :
    Echoes networks π Eq (isTaken (anyOrder listing details) deployment) w
      (isTaken (inMemory faulty details) deployment) := by
  refine .get fun b shifted => .ite ?_ (fun _ => .pure rfl) fun _ => ?_
  · rw [shifted.pool.isOrphaned]
  · refine .bind (Echoes.onStore _ (ShuffledStore.instancesOn_alongside deployment))
      fun existing existing' _ listed _ => .pure ?_
    simp [eq_nil_iff_of_listed listed.1]

section Provision

variable {id : String} {request : Request} {choice : Nat} {now : Timestamp} {plan : Plan}

theorem acquire_shifts {b : Shuffled} (shifted : Shifted networks π b w) (ready : Ready w)
    (choice : Nat) :
    (b.pool.acquire choice = .error .networkUnavailable ∧
        w.pool.acquire 0 = .error .networkUnavailable) ∨
      ∃ ρ n p q, b.pool.acquire choice = .ok (ρ n, p) ∧ w.pool.acquire 0 = .ok (n, q) ∧
        Shifted networks ρ { b with pool := p } { w with pool := q } := by
  have available := shifted.pool.available
  rcases b.pool.acquire_cases choice with ⟨none, refused⟩ | ⟨m, free, taken⟩ <;>
    rcases w.pool.acquire_cases 0 with ⟨none', refused'⟩ | ⟨n, free', taken'⟩
  · exact .inl ⟨refused, refused'⟩
  · have free := (available n).mpr free'
    simp [none] at free
  · have free' := (available (π.symm m)).mp (by simpa using free)
    simp [none'] at free'
  · -- The network taken here is exchanged for the one that goes with the network taken there.
    have back : π.symm m ∈ w.pool.available := (available _).mp (by simpa using free)
    have inside {k : String} (free : k ∈ w.pool.available) :
        k ∈ (NetworkPool.new networks).configured := shifted.configured ▸ ready.tidy.free k free
    let ρ := (Equiv.swap n (π.symm m)).trans π
    have name : ρ n = m := by simp [ρ]
    have renames : Renames ρ b.unshuffled w := by
      refine shifted.renames.congr ready.coherent (fun k used => ?_) fun k => ?_
      · refine congrArg π (Equiv.swap_apply_of_ne_of_ne ?_ ?_) <;> rintro rfl
        · exact used free'
        · exact used back
      · refine (available _).trans ?_
        rw [Equiv.swap_apply_def]
        split_ifs with same same
        · exact iff_of_true back (same ▸ free')
        · exact iff_of_true free' (same ▸ back)
        · exact Iff.rfl
    refine .inr ⟨ρ, n, _, _, name.symm ▸ taken, taken', ?_⟩
    exact { shifted with
      permutes := (Permutes.swap (inside free') (inside back)).trans shifted.permutes
      renames := { renames with pool := name ▸ renames.pool.take n } }

def Matched (networks : List String) (b : Shuffled) (w : Ordered) : Prop :=
  ∃ π, Shifted networks π b w

theorem Shifted.matched (b : Shuffled) (w : Ordered) (shifted : Shifted networks π b w) :
    Matched networks b w := ⟨π, shifted⟩

theorem deploy_matched (ready : Ready w) :
    Lockstep (Shifted networks π) (Matched networks) Eq
      (deploy (anyOrder listing details) id plan request choice now) w
      (deploy (inMemory faulty details) id plan request 0 now) := by
  intro b shifted
  unfold deploy
  rcases acquire_shifts shifted ready choice with
    ⟨refused, refused'⟩ | ⟨ρ, n, p, q, taken, taken', shifted⟩
  · rw [Call.exec_bind_error (exec_acquireNetwork_error refused),
      Call.exec_bind_error (exec_acquireNetwork_error refused')]
    exact ⟨.error _, π, shifted⟩
  · rw [Call.exec_bind_ok (exec_acquireNetwork_ok taken),
      Call.exec_bind_ok (exec_acquireNetwork_ok taken')]
    -- From here on the names stay: what was taken is kept, quarantined or given back.
    refine (Lockstep.bind (R := Eq) ?_ fun task _ w' same _ => ?_).mono
      (Shifted.matched (π := ρ)) _ shifted
    · refine Echoes.orElseUndo (Echoes.onDirector ?_)
        (fun _ _ permutes renames => renames.release permutes)
        fun _ => NetworkPool.configured_release
      have placed := SimulatedDirector.networkName_render (plan.deployment id)
      exact SimulatedDirector.createDeployment_alongside rfl (placed _ _ _) (placed _ _ _)
    · obtain rfl := same
      let i := Instance.new id (plan.deployment id) n task.token request now
      exact .bind (Echoes.orElseUndo (Echoes.saveInstance i)
        (fun _ _ _ renames => renames.quarantine _) fun _ => rfl) fun _ _ _ _ _ => .pure rfl

theorem deployUnlessTaken_matched (ready : Ready w) :
    Lockstep (Shifted networks π) (Matched networks) Eq
      (do
        if ← isTaken (anyOrder listing details) (plan.deployment id) then
          throw (.instanceAlreadyExists id)
        deploy (anyOrder listing details) id plan request choice now)
      w
      (do
        if ← isTaken (inMemory faulty details) (plan.deployment id) then
          throw (.instanceAlreadyExists id)
        deploy (inMemory faulty details) id plan request 0 now) := by
  refine .andThen (isTaken_echoes _) Shifted.matched fun taken _ w' same run => ?_
  obtain rfl := same
  have ready := ready.still run ((isTaken_yields _).mono fun _ _ h => h.1)
  refine .ite Iff.rfl (fun _ => ?_) fun _ => deploy_matched ready
  exact (Lockstep.refused _).mono Shifted.matched

theorem provision_matched (ready : Ready w) (accepts : Bool) :
    Lockstep (Shifted networks π) (Matched networks) Eq
      (provision (anyOrder listing details) id request accepts choice now) w
      (provision (inMemory faulty details) id request accepts 0 now) := by
  unfold provision
  refine .ite Iff.rfl (fun _ => (Lockstep.refused _).mono Shifted.matched) fun _ => ?_
  dsimp only
  split
  next plan _ =>
    refine .andThen (Echoes.onStore _ (ShuffledStore.findInstance_alongside id)) Shifted.matched
      fun found found' w₁ same run => ?_
    obtain rfl := same
    have ready := ready.still run (Yields.findInstance (fun _ _ => rfl) rfl)
    refine .ite (by simp) (fun _ => (Lockstep.refused _).mono Shifted.matched) fun _ => ?_
    refine .ite Iff.rfl (fun _ => ?_) fun _ => ?_
    · refine .andThen (joinable_echoes ready _) Shifted.matched fun live live' w₂ place run => ?_
      have ready := ready.still run ((joinable_yields _).mono fun _ _ h => h.1)
      rcases live with _ | live <;> rcases live' with _ | live'
      · exact deployUnlessTaken_matched ready
      · exact place.elim
      · exact place.elim
      -- The network that is joined is the same one, under the name it has here.
      · obtain ⟨network, task⟩ := place
        dsimp only
        rw [network, task]
        let i := Instance.new id (plan.deployment id) live'.network live'.provisionTask request now
        exact Lockstep.mono (.bind (Echoes.saveInstance i) fun _ _ _ _ _ => .pure rfl)
          Shifted.matched
    · exact fun b shifted => deployUnlessTaken_matched ready b shifted
  next => exact (Lockstep.throw _).mono Shifted.matched

end Provision

theorem isBeingDeployed_echoes (i : Instance) :
    Echoes networks π Eq (isBeingDeployed (anyOrder listing details) (i.rename π)) w
      (isBeingDeployed (inMemory faulty details) i) := by
  refine .tryCatch (Echoes.tell (SimulatedDirector.task_alongside _) fun _ _ => .pure rfl)
    (fun _ _ after => after) fun e => ?_
  split
  next => exact .pure rfl
  next => exact .throw _

theorem deprovision_echoes (id : String) (accepts : Bool) (now : Timestamp) :
    Echoes networks π Eq (deprovision (anyOrder listing details) id accepts now) w
      (deprovision (inMemory faulty details) id accepts now) := by
  unfold deprovision
  refine .ite Iff.rfl (fun _ => .refused _) fun _ => ?_
  refine Echoes.ask (ShuffledStore.findInstance_alongside id) fun found _ => ?_
  cases found with
  | none => exact .throw _
  | some i =>
    dsimp only [Option.map_some, Instance.deprovisionTask_rename]
    cases i.deprovisionTask with
    | some token => exact .pure rfl
    | none =>
      refine .bind (isBeingDeployed_echoes i) fun deploying _ _ same _ => ?_
      obtain rfl := same
      refine .ite Iff.rfl (fun _ => .refused _) fun _ => ?_
      refine Echoes.ask (ShuffledStore.bindings_alongside id) fun bound _ => ?_
      refine .ite Iff.rfl (fun _ => .refused _) fun _ => ?_
      refine .bind (Echoes.onStore _ (ShuffledStore.instancesOn_alongside i.deployment))
        fun others others' _ listed _ => ?_
      refine .ite ?_ (fun _ => ?_) fun _ => ?_
      · rw [listed.1.any_eq, List.any_map]
        exact Iff.rfl
      · exact .bind (Echoes.onStore _ (ShuffledStore.deleteInstance_alongside id))
          fun _ _ _ _ _ => .pure rfl
      · refine Echoes.tell (SimulatedDirector.deleteDeployment_alongside i.deployment)
          fun task _ => ?_
        exact .bind (Echoes.saveInstance (i.markDeprovisioning task.token now))
          fun _ _ _ _ _ => .pure rfl

theorem poll_echoes (id : String) (operation : Option String) :
    Echoes networks π Eq (poll (anyOrder listing details) id operation) w
      (poll (inMemory faulty details) id operation) := by
  unfold poll
  split
  next token _ =>
    refine Echoes.ask (ShuffledStore.findInstance_alongside id) fun found _ => ?_
    cases found with
    | none => exact .throw _
    | some i =>
      refine Echoes.tell (SimulatedDirector.task_alongside token) fun task _ => ?_
      exact .pure rfl
  next => exact .throw _

theorem completeDeprovision_echoes (id : String) :
    Echoes networks π Eq (completeDeprovision (anyOrder listing details) id) w
      (completeDeprovision (inMemory faulty details) id) := by
  refine Echoes.ask (ShuffledStore.findInstance_alongside id) fun found _ => ?_
  cases found with
  | none => exact .pure rfl
  | some i =>
    refine .bind (Echoes.onStore _ (ShuffledStore.deleteInstance_alongside id)) fun _ _ _ _ _ => ?_
    refine .bind (Echoes.onStore _ ShuffledStore.instances_alongside)
      fun others others' _ listed _ => ?_
    refine .ite ?_ (fun _ => ?_) fun _ => .pure rfl
    -- Different networks have different names here too, so the network is left alone or given back
    -- on both sides.
    · simp [listed.1.all_eq, List.all_map, Function.comp_def]
    · exact Echoes.onPool (fun _ _ permutes renames => renames.release permutes)
        fun _ => NetworkPool.configured_release

theorem lastOperation_echoes (id : String) (operation : Option String) :
    Echoes networks π Eq (lastOperation (anyOrder listing details) id operation) w
      (lastOperation (inMemory faulty details) id operation) := by
  refine .bind (poll_echoes id operation) fun polled _ _ same _ => ?_
  obtain rfl := same
  refine .ite Iff.rfl (fun _ => ?_) fun _ => .pure rfl
  exact .bind (completeDeprovision_echoes id) fun _ _ _ _ _ => .pure rfl

theorem bind_echoes (id bindingId : String) (request : BindRequest) (now : Timestamp) :
    Echoes networks π Eq (bind (anyOrder listing details) id bindingId request now) w
      (bind (inMemory faulty details) id bindingId request now) := by
  unfold bind
  refine .ite Iff.rfl (fun _ => .refused _) fun _ => ?_
  refine Echoes.ask (ShuffledStore.findBinding_alongside bindingId) fun known _ => ?_
  refine .ite Iff.rfl (fun _ => .refused _) fun _ => ?_
  refine Echoes.ask (ShuffledStore.findInstance_alongside id) fun found _ => ?_
  cases found with
  | none => exact .throw _
  | some i =>
    dsimp only [Option.map_some]
    refine .ite Iff.rfl (fun _ => .refused _) fun _ => ?_
    refine Echoes.tell (SimulatedDirector.task_alongside i.provisionTask) fun task _ => ?_
    refine .ite Iff.rfl (fun _ => .refused _) fun _ => ?_
    refine Echoes.tell (SimulatedDirector.vmIps_alongside i.deployment) fun ips _ => ?_
    exact .bind (Echoes.onStore _ (ShuffledStore.saveBinding_alongside _))
      fun _ _ _ _ _ => .pure rfl

theorem unbind_echoes (id bindingId : String) :
    Echoes networks π Eq (unbind (anyOrder listing details) id bindingId) w
      (unbind (inMemory faulty details) id bindingId) := by
  refine Echoes.ask (ShuffledStore.findInstance_alongside id) fun found _ => ?_
  refine .ite (by simp) (fun _ => .refused _) fun _ => ?_
  refine Echoes.ask (ShuffledStore.findBinding_alongside bindingId) fun known _ => ?_
  split
  next b _ => exact Echoes.onStore _ (ShuffledStore.deleteBinding_alongside b.id)
  next => exact .throw _

theorem unrecorded_echoes {known known' : List String} (names : List String)
    (same : ∀ name, name ∈ known ↔ name ∈ known') :
    Echoes networks π (fun orphans orphans' => orphans = orphans'.map fun o => (o.1, π o.2))
      (unrecorded (anyOrder listing details) known names) w
      (unrecorded (inMemory faulty details) known' names) := by
  induction names generalizing w with
  | nil => exact .pure rfl
  | cons name rest ih =>
    unfold unrecorded
    refine .ite (by simp [same]) (fun _ => ih) fun _ => ?_
    refine Echoes.tell (SimulatedDirector.network_alongside name) fun told _ => ?_
    cases told with
    | none => exact ih
    | some network =>
      refine ih.bind fun others others' _ same _ => ?_
      obtain rfl := same
      refine .pure ?_
      simp only [List.any_map, Function.comp_def]
      split <;> rfl

theorem refresh_echoes :
    Echoes networks π Eq (refresh (anyOrder listing details)) w
      (refresh (inMemory faulty details)) := by
  refine .bind (Echoes.onStore _ ShuffledStore.instances_alongside)
    fun recorded recorded' _ listed _ => ?_
  obtain ⟨perm, -⟩ := listed
  refine Echoes.tell SimulatedDirector.deployments_alongside fun deployments _ => ?_
  have known : ∀ name, name ∈ recorded.map (·.deployment) ↔
      name ∈ recorded'.map (·.deployment) := by
    intro name
    rw [(perm.map (·.deployment)).mem_iff, List.map_map]
    rfl
  refine .bind (unrecorded_echoes deployments known) fun orphans orphans' _ same _ => ?_
  obtain rfl := same
  refine Echoes.onPool (fun p q permutes renames => renames.refresh permutes (fun n => ?_) rfl)
    fun _ => rfl
  simp only [perm.mem_iff, List.forall_mem_map, Instance.network_rename, ne_eq,
    EmbeddingLike.apply_eq_iff_eq]

end Broker

end LedgerBroker
