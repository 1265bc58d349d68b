import LedgerBroker.Director.Http
import LedgerBroker.Director.Outage
import LedgerBroker.Director.Simulated
import LedgerBroker.Proofs.ValidRecords

set_option autoImplicit false

namespace LedgerBroker

namespace BrokerError

def IsNoSave (e : BrokerError) : Prop := ∀ text, e ≠ .dbSave text

end BrokerError

open BrokerError (IsNoSave)

theorem Call.Fails.savesNothing {σ α : Type} {call : Call BrokerError σ α}
    (fails : call.Fails IsNoSave) : call.SavesNothing :=
  fun x text failed => fails x _ failed text rfl

namespace SimulatedDirector

theorem director_savesNothing : director.SavesNothing where
  createDeployment m x text := by
    simp only [director, Call.exec_of]
    split <;> exact nofun
  deleteDeployment name x text := nofun
  task token := Call.Fails.savesNothing <| .query fun s e failed => by
    cases found : s.findTask? token with
    | none =>
      rw [found] at failed
      exact Except.error.inj failed ▸ nofun
    | some task =>
      rw [found] at failed
      cases failed
  vmIps name := Call.Fails.savesNothing <| .query fun _ _ => nofun
  deployments := Call.Fails.savesNothing <| .query fun _ _ => nofun
  network name := Call.Fails.savesNothing <| .query fun _ _ => nofun

end SimulatedDirector

namespace HttpDirector

open Call.Fails Http

variable {c : HttpDirector}

theorem fails_send (method : Method) (url : Url) (content : Option Content) :
    (c.send method url content).Fails IsNoSave := by
  refine .ite (fun x e => ?_) (.throw nofun)
  simp only [Call.exec_of]
  generalize ((Exchange.send _).exec x).1 = answer
  cases answer with
  | ok reply => exact nofun
  | error _ =>
    intro failed
    exact Except.error.inj failed ▸ nofun

theorem fails_endpoint (segments : List String) :
    Call.Fails IsNoSave (liftM (c.endpoint segments) : Call BrokerError Exchange Url) :=
  .lift fun e failed => by
    unfold endpoint at failed
    split at failed
    · exact Except.error.inj failed ▸ nofun
    · cases failed

theorem fails_decode {α : Type} (reader : Json.Reader α) (reply : Reply) :
    Call.Fails IsNoSave (liftM (decode reader reply) : Call BrokerError Exchange α) :=
  .lift fun e failed => by
    unfold decode at failed
    split at failed
    · exact Except.error.inj failed ▸ nofun
    · cases failed

theorem fails_submit (method : Method) (url : Url) (content : Option Content) :
    (c.submit method url content).Fails IsNoSave :=
  (fails_send _ _ _).bind fun reply => .lift fun e failed => by
    simp only [taskOf] at failed
    split at failed
    · exact Except.error.inj failed ▸ nofun
    · cases failed

theorem fails_task (id : String) : (c.task id).Fails IsNoSave := by
  refine (fails_endpoint _).bind fun url => (fails_send _ _ _).bind fun reply => ?_
  exact .guarded nofun (.guarded nofun (fails_decode _ _))

theorem fails_lifted {α : Type} {call : Call BrokerError Exchange α} (fails : call.Fails IsNoSave) :
    Call.Fails (IsNoSave ·.told) (liftM call : Call Halt Exchange α) := mapError fails

theorem fails_listed (reply : Reply) :
    Call.Fails IsNoSave (liftM (c.listed reply) : Call BrokerError Exchange VmIps) :=
  .lift fun e failed => by
    unfold listed at failed
    split at failed
    · exact Except.error.inj failed ▸ nofun
    · cases failed

theorem fails_rest (attempt : Nat) : (c.rest attempt).Fails (IsNoSave ·.told) := by
  unfold rest
  split
  · exact .pure _
  · exact .ite (fun _ _ => nofun) (.throw nofun)

theorem fails_pollListing (deployment : String) (url : Url) (tries : Nat) :
    ∀ attempt, (c.pollListing deployment url attempt tries).Fails (IsNoSave ·.told) := by
  -- The induction is on the tries that are left. The attempt only tells how long to wait.
  induction tries with
  | zero => exact fun _ => .throw nofun
  | succ tries ih =>
    intro attempt
    refine (fails_lifted (fails_send _ _ _)).bind fun reply => ?_
    exact .ite (fails_lifted (fails_listed reply))
      (.ite (.throw nofun) ((fails_rest attempt).bind fun _ => ih _))

theorem director_savesNothing (c : HttpDirector) : c.director.SavesNothing where
  createDeployment m := Call.Fails.savesNothing <|
    (fails_endpoint _).bind fun _ => (fails_submit _ _ _).bind fails_task
  deleteDeployment name := Call.Fails.savesNothing <|
    (fails_endpoint _).bind fun _ => (fails_submit _ _ _).bind fails_task
  task id := (fails_task id).savesNothing
  vmIps name := by
    have requested : (c.requestListing name).Fails IsNoSave :=
      (fails_endpoint _).bind fun _ => fails_submit _ _ _
    have awaited (task : String) : (c.awaitListing name task).Fails (IsNoSave ·.told) :=
      (fails_lifted (fails_endpoint _)).bind fun output =>
        .bind (fun _ _ => nofun) fun _ => fails_pollListing name _ _ _
    exact Call.Fails.savesNothing (mapError ((fails_lifted requested).bind awaited))
  deployments := Call.Fails.savesNothing <|
    (fails_endpoint _).bind fun _ => (fails_send _ _ _).bind fun _ =>
      .guarded nofun (fails_decode _ _)
  network name := by
    refine Call.Fails.savesNothing ((fails_endpoint _).bind fun _ => ?_)
    refine (fails_send _ _ _).bind fun reply => ?_
    refine .ite (.pure _) (.guarded nofun ((fails_decode _ _).bind fun text => ?_))
    cases Manifest.firstNetwork? text with
    | none => exact .throw nofun
    | some network => exact .pure _

end HttpDirector

end LedgerBroker
