import LedgerBroker.Director.Http
import LedgerBroker.Proofs.Creation
import LedgerBroker.Proofs.Membership
import LedgerBroker.Proofs.Run

set_option autoImplicit false

namespace LedgerBroker

open Http (Exchange Reply)

namespace HttpDirector

variable {c : HttpDirector} {method : Http.Method} {url : Url} {content : Option Http.Content}
  {x : Exchange} {reply : Reply}

def asking (c : HttpDirector) (method : Http.Method) (url : Url) (content : Option Http.Content)
    (x : Exchange) : Exchange :=
  { x with
    replies := x.replies.drop 1
    sent := x.sent ++ [⟨method, url.withoutFragment, c.login.map (·.authorization), content⟩] }

theorem exec_send_answered (sendable : isSendable url = true)
    (answered : x.replies.head? = some (some reply)) :
    (c.send method url content).exec x = (.ok reply, c.asking method url content x) := by
  unfold send
  rw [if_pos sendable]
  simp only [Call.exec_of, Exchange.send, answered]
  rfl

theorem exec_send_unanswered (sendable : isSendable url = true)
    (silent : x.replies.head? = some none) :
    (c.send method url content).exec x =
      (.error (.boshConnect ("error sending request for url (" ++ url.toString ++ ")")),
        c.asking method url content x) := by
  unfold send
  rw [if_pos sendable]
  simp only [Call.exec_of, Exchange.send, silent]
  rfl

theorem exec_send_unsendable (unsendable : isSendable url = false) :
    (c.send method url content).exec x =
      (.error (.httpRequestCreate ("builder error for url (" ++ url.toString ++ ")")), x) := by
  unfold send
  rw [unsendable]
  rfl

variable {m : Manifest} {task : String}

theorem exec_task_unanswered (place : c.endpoint ["tasks", task] = .ok url)
    (sendable : isSendable url = true) (silent : x.replies.head? = some none) :
    (c.task task).exec x =
      (.error (.boshConnect ("error sending request for url (" ++ url.toString ++ ")")),
        c.asking .get url none x) := by
  have placed : (liftM (c.endpoint ["tasks", task]) : Call BrokerError Exchange Url).exec x =
      (.ok url, x) := by
    rw [Call.exec_lift, place]
  unfold HttpDirector.task
  rw [Call.exec_bind_ok placed]
  exact Call.exec_bind_error (exec_send_unanswered sendable silent)

theorem exec_createDeployment_accepted (place : c.endpoint ["deployments"] = .ok url)
    (sendable : isSendable url = true) (answered : x.replies.head? = some (some reply))
    (accepted : taskOf reply = .ok task) :
    (c.createDeployment m).exec x =
      (c.task task).exec (c.asking .post url (some ⟨"text/yaml", m.text⟩) x) := by
  have submitted : (c.submit .post url (some ⟨"text/yaml", m.text⟩)).exec x =
      (.ok task, c.asking .post url (some ⟨"text/yaml", m.text⟩) x) := by
    unfold submit
    rw [Call.exec_bind_ok (exec_send_answered sendable answered), Call.exec_lift, accepted]
  have placed : (liftM (c.endpoint ["deployments"]) : Call BrokerError Exchange Url).exec x =
      (.ok url, x) := by
    rw [Call.exec_lift, place]
  unfold createDeployment
  rw [Call.exec_bind_ok placed, Call.exec_bind_ok submitted]

theorem sendable_of_createDeployment (sent : ((c.createDeployment m).exec x).2 ≠ x) :
    ∃ url, c.endpoint ["deployments"] = .ok url ∧ isSendable url = true := by
  unfold createDeployment at sent
  rw [Call.exec_bind, Call.exec_lift] at sent
  cases place : c.endpoint ["deployments"] with
  | error e =>
    rw [place] at sent
    exact absurd rfl sent
  | ok url =>
    rw [place] at sent
    cases sendable : isSendable url with
    | true => exact ⟨url, rfl, sendable⟩
    | false =>
      refine absurd ?_ sent
      have unsent : (c.submit .post url (some ⟨"text/yaml", m.text⟩)).exec x = _ :=
        Call.exec_bind_error (exec_send_unsendable sendable)
      exact congrArg Prod.snd (Call.exec_bind_error unsent)

end HttpDirector

namespace Broker

variable {ρ : Type} {c : HttpDirector} {store : Store ρ} {details : DirectorDetails}
  {b : Broker Exchange ρ} {id : String} {request : Request} {accepts : Bool} {choice : Nat}
  {now : Timestamp}

/-- What a provision asks the Director to put up, and where. -/
structure Order (c : HttpDirector) (b : Broker Exchange ρ) (request : Request) (choice : Nat) where
  plan : Plan
  network : String
  pool : NetworkPool
  url : Url
  resolved : Plan.resolve? request.serviceId request.planId = some plan
  acquired : b.pool.acquire choice = .ok (network, pool)
  place : c.endpoint ["deployments"] = .ok url
  sendable : HttpDirector.isSendable url = true

namespace Order

variable (o : Order c b request choice)

def manifest (details : DirectorDetails) (id : String) : Manifest :=
  Manifest.render (o.plan.deployment id) o.network o.plan.isPermissioned details

def asked (details : DirectorDetails) (id : String) : Exchange :=
  c.asking .post o.url (some ⟨"text/yaml", (o.manifest details id).text⟩) b.director

end Order

theorem order_of_sent
    (posted : ((provision ⟨c.director, store, details⟩ id request accepts choice now).exec
      b).2.director.sent ≠ b.director.sent) :
    ∃ (o : Order c b request choice) (records : ρ),
      Deployed ⟨c.director, store, details⟩ id o.plan request now { b with records := records }
        o.network o.pool
        ((provision ⟨c.director, store, details⟩ id request accepts choice now).exec b) := by
  have moved : ((provision ⟨c.director, store, details⟩ id request accepts choice now).exec
      b).2.director ≠ b.director := fun same => posted (congrArg Exchange.sent same)
  obtain ⟨plan, records, resolved, same⟩ := exec_provision_of_director moved
  obtain ⟨network, pool, acquired⟩ :=
    acquired_of_director (b := { b with records := records }) (same ▸ moved)
  have deployed : Deployed ⟨c.director, store, details⟩ id plan request now
      { b with records := records } network pool
      ((provision ⟨c.director, store, details⟩ id request accepts choice now).exec b) := by
    rw [same]
    exact deploy_deployed acquired
  -- Only the creation speaks to the Director, so it is what sent a request.
  rw [deployed.director] at moved
  obtain ⟨url, place, sendable⟩ := HttpDirector.sendable_of_createDeployment moved
  exact ⟨⟨plan, network, pool, url, resolved, acquired, place, sendable⟩, records, deployed⟩

/-- A network whose deployment the Director has begun to put up is given back if and only if the
task that does it cannot be looked up. Otherwise the network is recorded or quarantined. -/
theorem accepted_network_available_iff {reply : Reply} {task : String}
    (answered : b.director.replies.head? = some (some reply))
    (accepted : HttpDirector.taskOf reply = .ok task)
    (posted : ((provision ⟨c.director, store, details⟩ id request accepts choice now).exec
      b).2.director.sent ≠ b.director.sent) :
    ∃ o : Order c b request choice,
      let out := (provision ⟨c.director, store, details⟩ id request accepts choice now).exec b
      let looked := (c.task task).exec (o.asked details id)
      out.2.director = looked.2 ∧
      (o.network ∈ out.2.pool.available ↔
        (∃ e, looked.1 = .error e) ∧ o.network ∈ b.pool.configured ∧
          b.pool.isHeld o.network = false) ∧
      ∀ t, looked.1 = .ok t →
        (∃ records, (store.saveInstance (Instance.new id (o.plan.deployment id) o.network t.token
            request now)).exec records = (.ok (), out.2.records)) ∨
          (o.plan.deployment id, o.network) ∈ out.2.pool.orphans := by
  obtain ⟨o, records, deployed⟩ := order_of_sent posted
  refine ⟨o, ?_⟩
  have started := HttpDirector.exec_createDeployment_accepted (m := o.manifest details id) o.place
    o.sendable answered accepted
  have taken := NetworkPool.not_mem_acquire o.acquired
  -- The outcome speaks of the provision as a whole, which is not looked into any more.
  generalize (provision ⟨c.director, store, details⟩ id request accepts choice now).exec b = out
    at deployed
  cases deployed with
  | refused e x created =>
    have looked : (c.task task).exec (o.asked details id) = (.error e, x) :=
      started.symm.trans created
    rw [looked]
    refine ⟨rfl, ?_, nofun⟩
    -- A lookup that fails is a creation that fails, after which the network is released.
    rw [NetworkPool.mem_release_acquired o.acquired]
    exact ⟨fun back => ⟨⟨e, rfl⟩, back⟩, fun back => back.2⟩
  | unsaved t x e records' created =>
    have looked : (c.task task).exec (o.asked details id) = (.ok t, x) :=
      started.symm.trans created
    rw [looked]
    refine ⟨rfl, ⟨fun free => ?_, fun failed => nomatch failed.1⟩, fun _ _ => .inr ?_⟩
    · exact absurd rfl (NetworkPool.mem_available_quarantine.mp free).2
    · exact NetworkPool.mem_orphans_quarantine.mpr (.inr rfl)
  | saved t x records' created saved =>
    have looked : (c.task task).exec (o.asked details id) = (.ok t, x) :=
      started.symm.trans created
    rw [looked]
    refine ⟨rfl, ⟨fun free => absurd free taken, fun failed => nomatch failed.1⟩, ?_⟩
    intro t' same
    obtain rfl := Except.ok.inj same
    exact .inl ⟨records, saved⟩

section Lost

def placed (segments : List String) : Url where
  scheme := "http".toList
  authority := some ⟨none, .name "director".toList, some 25555⟩
  path := .segments (segments.map String.toList)
  query := none
  fragment := none

def openDirector : HttpDirector := ⟨placed [""], none, .default, .utf8⟩

def begun : Reply := ⟨302, [("location", Bytes.ofString "/tasks/17")], some []⟩

theorem taskOf_begun : HttpDirector.taskOf begun = .ok "17" := by
  have located : begun.headers.get? "location" = some (Bytes.ofString "/tasks/17") := by
    simp [begun, Http.Headers.get?]
  have visible : (Bytes.ofString "/tasks/17").all Http.isVisible = true := by decide
  have text : begun.headers.text? "location" = some "/tasks/17" := by
    rw [Http.Headers.text?, located, Option.bind_some, if_pos visible, Bytes.text?_ofString]
  have last : HttpDirector.lastPart "/tasks/17" = "17" := by decide
  have named : "17" ≠ "" := by decide
  simp only [HttpDirector.taskOf, text, Option.getD_some, last]
  exact if_neg named

def abandoned : Broker Exchange MemoryStore :=
  start ["net1"] { replies := [some begun, none] } {}

def abandonedOrder : Order openDirector abandoned (orderOf .permissionless) 0 where
  plan := .permissionless
  network := "net1"
  pool := ⟨["net1"], [], []⟩
  url := placed ["deployments"]
  resolved := by decide
  acquired := by rfl
  place := by rfl
  sendable := by decide +kernel

def conversation : Exchange :=
  openDirector.asking .get (placed ["tasks", "17"]) none (abandonedOrder.asked someDetails "a")

theorem exec_task_abandoned : ∃ e,
    (openDirector.task "17").exec (abandonedOrder.asked someDetails "a") =
      (.error e, conversation) := by
  have place : openDirector.endpoint ["tasks", "17"] = .ok (placed ["tasks", "17"]) := by rfl
  exact ⟨_, HttpDirector.exec_task_unanswered place (by decide +kernel) rfl⟩

theorem exec_provision_abandoned : ∃ e,
    (provision ⟨openDirector.director, MemoryStore.store, someDetails⟩ "a"
      (orderOf .permissionless) true 0 firstDay).exec abandoned =
        (.error e, ⟨⟨["net1"], ["net1"], []⟩, conversation, {}⟩) := by
  obtain ⟨e, lost⟩ := exec_task_abandoned
  have absent : (MemoryStore.store.findInstance "a").exec abandoned.records = (.ok none, {}) := rfl
  have free : (isTaken ⟨openDirector.director, MemoryStore.store, someDetails⟩
      (Plan.permissionless.deployment "a")).exec abandoned = (.ok false, abandoned) := rfl
  have refused := (HttpDirector.exec_createDeployment_accepted
    (m := abandonedOrder.manifest someDetails "a") abandonedOrder.place abandonedOrder.sendable
    rfl taskOf_begun).trans lost
  refine ⟨e, ?_⟩
  rw [exec_provision_dedicated abandonedOrder.resolved rfl absent free]
  exact exec_deploy_refused abandonedOrder.acquired refused

theorem accepted_network_available_iff_abandoned :
    let out := (provision ⟨openDirector.director, MemoryStore.store, someDetails⟩ "a"
      (orderOf .permissionless) true 0 firstDay).exec abandoned
    abandoned.director.replies.head? = some (some begun) ∧
    HttpDirector.taskOf begun = .ok "17" ∧ out.2.director.sent ≠ abandoned.director.sent ∧
    ∃ o : Order openDirector abandoned (orderOf .permissionless) 0,
      o.network ∈ out.2.pool.available ↔
        (∃ e, ((openDirector.task "17").exec (o.asked someDetails "a")).1 = .error e) ∧
          o.network ∈ abandoned.pool.configured ∧ abandoned.pool.isHeld o.network = false := by
  intro out
  have posted : out.2.director.sent ≠ abandoned.director.sent := by
    obtain ⟨e, run⟩ := exec_provision_abandoned
    simp only [out, run]
    exact List.cons_ne_nil _ _
  obtain ⟨o, _, free, _⟩ :=
    accepted_network_available_iff (b := abandoned) rfl taskOf_begun posted
  exact ⟨rfl, taskOf_begun, posted, o, free⟩

theorem accepted_network_given_back :
    let out := (provision ⟨openDirector.director, MemoryStore.store, someDetails⟩ "a"
      (orderOf .permissionless) true 0 firstDay).exec abandoned
    HttpDirector.taskOf begun = .ok "17" ∧ out.2.director.sent.map (·.method) = [.post, .get] ∧
      out.2.pool = ⟨["net1"], ["net1"], []⟩ ∧ out.2.records.instances = [] := by
  obtain ⟨e, run⟩ := exec_provision_abandoned
  rw [run]
  exact ⟨taskOf_begun, rfl, rfl, rfl⟩

end Lost

end Broker

end LedgerBroker
