import LedgerBroker.Proofs.DeploymentUrls

set_option autoImplicit false

namespace LedgerBroker

open Http (Exchange Reply)

theorem Url.authority_withField (u : Url) (name value : String) :
    (u.withField name value).authority = u.authority := rfl

namespace HttpDirector

variable {ε ε' α β : Type} {call : Call ε Exchange α} {f : α → Call ε Exchange β}
  {p q : Http.Request → Prop}

/-- Every request that the call sends is such a request. -/
def Sends (p : Http.Request → Prop) (call : Call ε Exchange α) : Prop :=
  ∀ x, ∃ later, (call.exec x).2.sent = x.sent ++ later ∧ ∀ r ∈ later, p r

namespace Sends

theorem mono (sends : Sends p call) (implied : ∀ r, p r → q r) : Sends q call := by
  intro x
  obtain ⟨later, sent, kind⟩ := sends x
  exact ⟨later, sent, fun r mem => implied r (kind r mem)⟩

theorem quiet (same : ∀ x, (call.exec x).2.sent = x.sent) : Sends p call :=
  fun x => ⟨[], by rw [same x, List.append_nil], List.forall_mem_nil _⟩

theorem bind (first : Sends p call) (rest : ∀ a, Sends p (f a)) : Sends p (call >>= f) := by
  intro x
  obtain ⟨early, sent, kind⟩ := first x
  rw [Call.exec_bind]
  split
  · obtain ⟨later, sent', kind'⟩ := rest _ (call.exec x).2
    refine ⟨early ++ later, by rw [sent', sent, List.append_assoc], fun r mem => ?_⟩
    exact (List.mem_append.1 mem).elim (kind r) (kind' r)
  · exact ⟨early, sent, kind⟩

theorem lift (e : Except ε α) : Sends p (liftM e : Call ε Exchange α) := quiet fun _ => rfl

theorem mapError (sends : Sends p call) (rename : ε → ε') : Sends p (call.mapError rename) := sends

theorem throw (e : ε) : Sends p (throw e : Call ε Exchange α) := quiet fun _ => rfl

theorem pure (a : α) : Sends p (pure a : Call ε Exchange α) := quiet fun _ => rfl

theorem wait (d : Duration) : Sends p (Exchange.wait d : Call ε Exchange Unit) :=
  quiet fun _ => rfl

theorem ite {condition : Prop} [Decidable condition] {other : Call ε Exchange α}
    (yes : Sends p call) (no : Sends p other) : Sends p (if condition then call else other) := by
  split
  · exact yes
  · exact no

theorem guarded {condition : Prop} [Decidable condition] {e : ε}
    {rest : Unit → Call ε Exchange α} (sends : Sends p (rest ())) :
    Sends p (if condition then MonadExcept.throw e >>= rest else rest ()) :=
  .ite (.quiet fun _ => rfl) sends

end Sends

variable {c : HttpDirector} {method : Http.Method} {url : Url} {content : Option Http.Content}

theorem sends_send (kind : p ⟨method, url.withoutFragment, c.login.map (·.authorization), content⟩) :
    Sends p (c.send method url content) := by
  cases sendable : isSendable url with
  | false => exact .quiet fun x => congrArg Exchange.sent (still_send sendable x)
  | true =>
    exact fun x => ⟨_, congrArg Exchange.sent (sent_send sendable x), by simpa using kind⟩

theorem sends_placed {segments : List String} {f : Url → Call BrokerError Exchange α}
    (rest : ∀ url, c.endpoint segments = .ok url → Sends p (f url)) :
    Sends p ((liftM (c.endpoint segments) : Call BrokerError Exchange Url) >>= f) := by
  intro x
  cases placed : c.endpoint segments with
  | error e => exact ⟨[], (List.append_nil _).symm, List.forall_mem_nil _⟩
  | ok url =>
    rw [← placed, exec_placed placed]
    exact rest url placed x

structure Asks (c : HttpDirector) (r : Http.Request) : Prop where
  authority : r.url.authority = c.base.authority
  authorization : r.authorization = c.login.map (·.authorization)

theorem authority_endpoint {segments : List String} (placed : c.endpoint segments = .ok url) :
    url.authority = c.base.authority := by
  unfold endpoint Url.descend? at placed
  split at placed
  case h_1 none_ => cases placed
  case h_2 some_ =>
    split at some_
    · cases some_
    · cases some_
      cases placed
      rfl

theorem asks_at (below : url.authority = c.base.authority) :
    c.Asks ⟨method, url.withoutFragment, c.login.map (·.authorization), content⟩ :=
  ⟨below, rfl⟩

theorem sends_submit (below : url.authority = c.base.authority) :
    Sends c.Asks (c.submit method url content) :=
  (sends_send (asks_at below)).bind fun _ => .lift _

theorem sends_task (id : String) : Sends c.Asks (c.task id) := by
  refine sends_placed fun url placed => ?_
  refine (sends_send (asks_at (authority_endpoint placed))).bind fun reply => ?_
  exact .guarded (.guarded (.lift _))

theorem sends_deployments : Sends c.Asks c.deployments := by
  refine sends_placed fun url placed => ?_
  refine (sends_send (asks_at (authority_endpoint placed))).bind fun reply => ?_
  exact .guarded (.lift _)

theorem sends_network (name : String) : Sends c.Asks (c.network name) := by
  refine sends_placed fun url placed => ?_
  exact (sends_send (asks_at (authority_endpoint placed))).bind fun reply =>
    .quiet fun x => congrArg Exchange.sent (still_network reply x)

theorem sends_createDeployment (m : Manifest) : Sends c.Asks (c.createDeployment m) := by
  refine sends_placed fun url placed => ?_
  exact (sends_submit (authority_endpoint placed)).bind fun id => sends_task id

theorem sends_deleteDeployment (name : String) : Sends c.Asks (c.deleteDeployment name) := by
  refine sends_placed fun url placed => ?_
  exact (sends_submit (authority_endpoint placed)).bind fun id => sends_task id

theorem sends_lifted {call : Call BrokerError Exchange α} (sends : Sends p call) :
    Sends p (liftM call : Call Halt Exchange α) := sends.mapError Halt.failed

theorem sends_rest (attempt : Nat) : Sends p (c.rest attempt) := by
  unfold rest
  split
  · exact .pure _
  · exact .ite (.wait _) (.throw _)

theorem sends_pollListing (deployment : String) (below : url.authority = c.base.authority)
    (tries : Nat) : ∀ attempt, Sends c.Asks (c.pollListing deployment url attempt tries) := by
  induction tries with
  | zero => exact fun _ => .throw _
  | succ tries ih =>
    intro attempt
    refine (sends_lifted (sends_send (asks_at below))).bind fun reply => ?_
    exact .ite (.quiet fun _ => rfl)
      (.ite (.throw _) ((sends_rest attempt).bind fun _ => ih _))

theorem sends_requestListing (name : String) : Sends c.Asks (c.requestListing name) :=
  sends_placed fun listing placed =>
    sends_submit ((Url.authority_withField listing "format" "full").trans
      (authority_endpoint placed))

theorem sends_awaitListing (name task : String) : Sends c.Asks (c.awaitListing name task) := by
  intro x
  cases placed : c.endpoint ["tasks", task, "output"] with
  | error e =>
    refine ⟨[], ?_, List.forall_mem_nil _⟩
    rw [awaitListing, placed, List.append_nil]
    rfl
  | ok output =>
    have below : (output.withField "type" "result").authority = c.base.authority :=
      (Url.authority_withField ..).trans (authority_endpoint placed)
    have polls : Sends c.Asks (do
        Exchange.wait c.retry.initialDelay
        c.pollListing name (output.withField "type" "result") 1 c.retry.maxAttempts) :=
      (Sends.wait _).bind fun _ => sends_pollListing name below _ 1
    rw [awaitListing, placed]
    exact polls x

theorem sends_vmIps (name : String) : Sends c.Asks (c.director.vmIps name) :=
  ((sends_lifted (sends_requestListing name)).bind (sends_awaitListing name)).mapError Halt.told

structure EachSends (p : Http.Request → Prop) (d : Director Exchange) : Prop where
  createDeployment (m : Manifest) : Sends p (d.createDeployment m)
  deleteDeployment (name : String) : Sends p (d.deleteDeployment name)
  task (id : String) : Sends p (d.task id)
  vmIps (name : String) : Sends p (d.vmIps name)
  deployments : Sends p d.deployments
  network (name : String) : Sends p (d.network name)

theorem EachSends.mono {d : Director Exchange} (each : EachSends p d) (implied : ∀ r, p r → q r) :
    EachSends q d :=
  ⟨fun m => (each.createDeployment m).mono implied,
    fun name => (each.deleteDeployment name).mono implied, fun id => (each.task id).mono implied,
    fun name => (each.vmIps name).mono implied, each.deployments.mono implied,
    fun name => (each.network name).mono implied⟩

theorem director_asks (c : HttpDirector) : EachSends c.Asks c.director :=
  ⟨sends_createDeployment, sends_deleteDeployment, sends_task, sends_vmIps, sends_deployments,
    sends_network⟩

end HttpDirector
end LedgerBroker
