import LedgerBroker.Broker.Provisioning
import LedgerBroker.Proofs.Steps

set_option autoImplicit false

namespace LedgerBroker

namespace Broker

open Step

variable {δ ρ α β : Type}

namespace Step

def OnRecords (x : Step δ ρ α) : Prop :=
  ∀ b, ∃ records, (x.exec b).2 = { b with records := records }

namespace OnRecords

theorem pure (a : α) : OnRecords (Pure.pure a : Step δ ρ α) := fun b => ⟨b.records, rfl⟩

theorem throw (e : BrokerError) : OnRecords (MonadExcept.throw e : Step δ ρ α) :=
  fun b => ⟨b.records, rfl⟩

theorem onStore (rename : String → BrokerError) (call : Call StoreError ρ α) :
    OnRecords (Step.onStore rename call : Step δ ρ α) := fun _ => ⟨_, rfl⟩

theorem get : OnRecords (MonadState.get : Step δ ρ (Broker δ ρ)) := fun b => ⟨b.records, rfl⟩

theorem bind {x : Step δ ρ α} {f : α → Step δ ρ β} (h : OnRecords x) (next : ∀ a, OnRecords (f a)) :
    OnRecords (x >>= f) := by
  intro b
  obtain ⟨records, first⟩ := h b
  rw [Call.exec_bind]
  cases (x.exec b).1 with
  | error e => exact ⟨records, first⟩
  | ok a =>
    rw [first]
    exact next a { b with records := records }

theorem check {y : Step δ ρ α} {f : β → Step δ ρ α} {c : Prop} [Decidable c] (e : BrokerError)
    (next : OnRecords y) : OnRecords (if c then MonadExcept.throw e >>= f else y) := by
  intro b
  split
  · exact ⟨b.records, rfl⟩
  · exact next b

end OnRecords

def LeadsTo (last x : Step δ ρ α) : Prop :=
  ∀ b, (∃ records, (x.exec b).2 = { b with records := records }) ∨
    ∃ records, x.exec b = last.exec { b with records := records }

namespace LeadsTo

theorem refl (last : Step δ ρ α) : LeadsTo last last := fun b => .inr ⟨b.records, rfl⟩

theorem of_onRecords {last x : Step δ ρ α} (h : OnRecords x) : LeadsTo last x :=
  fun b => .inl (h b)

theorem throw {last : Step δ ρ α} (e : BrokerError) : LeadsTo last (MonadExcept.throw e) :=
  .of_onRecords (.throw e)

theorem bind {x : Step δ ρ α} {f : α → Step δ ρ β} {last : Step δ ρ β} (h : OnRecords x)
    (next : ∀ a, LeadsTo last (f a)) : LeadsTo last (x >>= f) := by
  intro b
  obtain ⟨records, first⟩ := h b
  rw [Call.exec_bind]
  cases (x.exec b).1 with
  | error e => exact .inl ⟨records, first⟩
  | ok a =>
    rw [first]
    exact next a { b with records := records }

theorem ite {last x y : Step δ ρ α} {c : Prop} [Decidable c] (pos : LeadsTo last x)
    (neg : LeadsTo last y) : LeadsTo last (if c then x else y) := by
  split
  · exact pos
  · exact neg

theorem check {last y : Step δ ρ α} {f : β → Step δ ρ α} {c : Prop} [Decidable c] (e : BrokerError)
    (next : LeadsTo last y) : LeadsTo last (if c then MonadExcept.throw e >>= f else y) :=
  .ite (fun b => .inl ⟨b.records, rfl⟩) next

end LeadsTo

section Undo

variable {step : Step δ ρ α} {undo : NetworkPool → NetworkPool} {b b' : Broker δ ρ}

theorem exec_orElseUndo_ok {a : α} (h : step.exec b = (.ok a, b')) :
    (orElseUndo step undo).exec b = (.ok a, b') := by
  have run := Call.exec_tryCatch step (fun e => onPool undo >>= fun _ => throw e) b
  rw [h] at run
  exact run

theorem exec_orElseUndo_error {e : BrokerError} (h : step.exec b = (.error e, b')) :
    (orElseUndo step undo).exec b = (.error e, { b' with pool := undo b'.pool }) := by
  have run := Call.exec_tryCatch step (fun e => onPool undo >>= fun _ => throw e) b
  rw [h] at run
  exact run

end Undo

end Step

section Deploy

variable {s : Services δ ρ} {id : String} {plan : Plan} {request : Request} {choice : Nat}
  {now : Timestamp} {b : Broker δ ρ} {network : String} {pool : NetworkPool} {x : δ}

theorem joinable_onRecords (deployment : String) : OnRecords (joinable s deployment) := by
  refine .bind (.onStore _ _) fun existing => ?_
  split
  · exact .pure _
  · split
    · exact .throw _
    · exact .pure _

theorem isTaken_onRecords (deployment : String) : OnRecords (isTaken s deployment) := by
  refine .bind .get fun b => ?_
  split
  · exact .pure _
  · exact .bind (.onStore _ _) fun _ => .pure _

theorem provision_leadsTo (resolved : Plan.resolve? request.serviceId request.planId = some plan)
    (accepts : Bool) :
    LeadsTo (deploy s id plan request choice now) (provision s id request accepts choice now) := by
  unfold provision
  refine .check _ ?_
  rw [resolved]
  refine .bind (.onStore _ _) fun found => .check _ ?_
  -- A shared plan looks for an instance to join first. Then both kinds go on alike.
  refine .ite (.bind (joinable_onRecords _) fun live => ?_) (.bind (.pure _) fun live => ?_)
  all_goals
    cases live with
    | some live => exact .of_onRecords (.bind (.onStore _ _) fun _ => .pure _)
    | none => exact .bind (isTaken_onRecords _) fun _ => .check _ (.refl _)

theorem provision_onRecords (unresolved : Plan.resolve? request.serviceId request.planId = none)
    (accepts : Bool) : OnRecords (provision s id request accepts choice now) := by
  unfold provision
  refine .check _ ?_
  rw [unresolved]
  exact .throw _

theorem exec_provision_dedicated {records records' : ρ}
    (resolved : Plan.resolve? request.serviceId request.planId = some plan)
    (dedicated : plan.isShared = false)
    (absent : (s.store.findInstance id).exec b.records = (.ok none, records))
    (free : (isTaken s (plan.deployment id)).exec { b with records := records } =
      (.ok false, { b with records := records' })) :
    (provision s id request true choice now).exec b =
      (deploy s id plan request choice now).exec { b with records := records' } := by
  have searched : (Step.read (s.store.findInstance id)).exec b =
      (.ok none, { b with records := records }) := by
    rw [Step.read, exec_onStore, absent]
    rfl
  unfold provision
  simp only [resolved, dedicated, Bool.not_true, Bool.false_eq_true, if_false]
  rw [Call.exec_bind_ok searched]
  exact Call.exec_bind_ok free

theorem exec_provision_of_director {accepts : Bool}
    (moved : ((provision s id request accepts choice now).exec b).2.director ≠ b.director) :
    ∃ plan records, Plan.resolve? request.serviceId request.planId = some plan ∧
      (provision s id request accepts choice now).exec b =
        (deploy s id plan request choice now).exec { b with records := records } := by
  cases resolved : Plan.resolve? request.serviceId request.planId with
  | none =>
    obtain ⟨records, same⟩ := provision_onRecords (s := s) resolved accepts b
    rw [same] at moved
    exact absurd rfl moved
  | some plan =>
    rcases provision_leadsTo (s := s) resolved accepts b with ⟨records, same⟩ | ⟨records, same⟩
    · rw [same] at moved
      exact absurd rfl moved
    · exact ⟨plan, records, rfl, same⟩

theorem acquired_of_director
    (moved : ((deploy s id plan request choice now).exec b).2.director ≠ b.director) :
    ∃ network pool, b.pool.acquire choice = .ok (network, pool) := by
  cases acquired : b.pool.acquire choice with
  | ok taken => exact ⟨taken.1, taken.2, rfl⟩
  | error e =>
    unfold deploy at moved
    rw [Call.exec_bind_error (exec_acquireNetwork_error acquired)] at moved
    exact absurd rfl moved

inductive Deployed (s : Services δ ρ) (id : String) (plan : Plan) (request : Request)
    (now : Timestamp) (b : Broker δ ρ) (network : String) (pool : NetworkPool) :
    Except BrokerError String × Broker δ ρ → Prop
  | refused (e : BrokerError) (x : δ)
      (created : (s.director.createDeployment (Manifest.render (plan.deployment id) network
        plan.isPermissioned s.details)).exec b.director = (.error e, x)) :
      Deployed s id plan request now b network pool
        (.error e, ⟨pool.release network, x, b.records⟩)
  | unsaved (task : Task) (x : δ) (e : StoreError) (records : ρ)
      (created : (s.director.createDeployment (Manifest.render (plan.deployment id) network
        plan.isPermissioned s.details)).exec b.director = (.ok task, x))
      (unsaved : (s.store.saveInstance (Instance.new id (plan.deployment id) network task.token
        request now)).exec b.records = (.error e, records)) :
      Deployed s id plan request now b network pool
        (.error (.dbSave e.chain), ⟨pool.quarantine (plan.deployment id) network, x, records⟩)
  | saved (task : Task) (x : δ) (records : ρ)
      (created : (s.director.createDeployment (Manifest.render (plan.deployment id) network
        plan.isPermissioned s.details)).exec b.director = (.ok task, x))
      (saved : (s.store.saveInstance (Instance.new id (plan.deployment id) network task.token
        request now)).exec b.records = (.ok (), records)) :
      Deployed s id plan request now b network pool (.ok task.token, ⟨pool, x, records⟩)

section Acquired

variable (acquired : b.pool.acquire choice = .ok (network, pool))
include acquired

theorem exec_deploy_refused {e : BrokerError}
    (refused : (s.director.createDeployment (Manifest.render (plan.deployment id) network
      plan.isPermissioned s.details)).exec b.director = (.error e, x)) :
    (deploy s id plan request choice now).exec b =
      (.error e, ⟨pool.release network, x, b.records⟩) := by
  have failed : (onDirector (s.director.createDeployment (Manifest.render (plan.deployment id)
      network plan.isPermissioned s.details))).exec { b with pool := pool } =
      (.error e, ⟨pool, x, b.records⟩) := by
    rw [exec_onDirector, refused]
  unfold deploy
  rw [Call.exec_bind_ok (exec_acquireNetwork_ok acquired)]
  exact Call.exec_bind_error (exec_orElseUndo_error failed)

variable {task : Task} {records : ρ}
  (created : (s.director.createDeployment (Manifest.render (plan.deployment id) network
    plan.isPermissioned s.details)).exec b.director = (.ok task, x))
include created

theorem exec_deploy_created :
    (deploy s id plan request choice now).exec b =
      (orElseUndo (save (s.store.saveInstance (Instance.new id (plan.deployment id) network
        task.token request now))) (·.quarantine (plan.deployment id) network) >>=
          fun _ => pure task.token).exec ⟨pool, x, b.records⟩ := by
  have started : (onDirector (s.director.createDeployment (Manifest.render (plan.deployment id)
      network plan.isPermissioned s.details))).exec { b with pool := pool } =
      (.ok task, ⟨pool, x, b.records⟩) := by
    rw [exec_onDirector, created]
  unfold deploy
  rw [Call.exec_bind_ok (exec_acquireNetwork_ok acquired)]
  exact Call.exec_bind_ok (exec_orElseUndo_ok started)

theorem exec_deploy_unsaved {e : StoreError}
    (unsaved : (s.store.saveInstance (Instance.new id (plan.deployment id) network task.token
      request now)).exec b.records = (.error e, records)) :
    (deploy s id plan request choice now).exec b =
      (.error (.dbSave e.chain), ⟨pool.quarantine (plan.deployment id) network, x, records⟩) := by
  have lost : (save (s.store.saveInstance (Instance.new id (plan.deployment id) network
      task.token request now))).exec (⟨pool, x, b.records⟩ : Broker δ ρ) =
      (.error (.dbSave e.chain), ⟨pool, x, records⟩) := by
    rw [save, exec_onStore, unsaved]
    rfl
  rw [exec_deploy_created acquired created]
  exact Call.exec_bind_error (exec_orElseUndo_error lost)

theorem exec_deploy_saved
    (saved : (s.store.saveInstance (Instance.new id (plan.deployment id) network task.token
      request now)).exec b.records = (.ok (), records)) :
    (deploy s id plan request choice now).exec b = (.ok task.token, ⟨pool, x, records⟩) := by
  have kept : (save (s.store.saveInstance (Instance.new id (plan.deployment id) network
      task.token request now))).exec (⟨pool, x, b.records⟩ : Broker δ ρ) =
      (.ok (), ⟨pool, x, records⟩) := by
    rw [save, exec_onStore, saved]
    rfl
  rw [exec_deploy_created acquired created]
  exact Call.exec_bind_ok (exec_orElseUndo_ok kept)

omit created in
theorem deploy_deployed :
    Deployed s id plan request now b network pool
      ((deploy s id plan request choice now).exec b) := by
  cases created : (s.director.createDeployment (Manifest.render (plan.deployment id) network
      plan.isPermissioned s.details)).exec b.director with
  | mk result x =>
    cases result with
    | error e =>
      rw [exec_deploy_refused acquired created]
      exact .refused e x created
    | ok task =>
      cases saved : (s.store.saveInstance (Instance.new id (plan.deployment id) network task.token
          request now)).exec b.records with
      | mk result records =>
        cases result with
        | error e =>
          rw [exec_deploy_unsaved acquired created saved]
          exact .unsaved task x e records created saved
        | ok =>
          rw [exec_deploy_saved acquired created saved]
          exact .saved task x records created saved

end Acquired

theorem Deployed.director {out : Except BrokerError String × Broker δ ρ}
    (h : Deployed s id plan request now b network pool out) :
    out.2.director = ((s.director.createDeployment (Manifest.render (plan.deployment id) network
      plan.isPermissioned s.details)).exec b.director).2 := by
  cases h with
  | refused e x created | unsaved task x e records created | saved task x records created =>
    exact (congrArg Prod.snd created).symm

end Deploy

end Broker

end LedgerBroker
