import LedgerBroker.Outage

set_option autoImplicit false

namespace LedgerBroker

section Checks

variable {ε ε' α β : Type} {c : Prop} [Decidable c] {e : ε} {a : α} {x : Except ε α}

theorem ok_of_bind {f : α → Except ε β} {b : β} (h : x >>= f = .ok b) :
    ∃ a, x = .ok a ∧ f a = .ok b := by
  cases x with
  | error e => cases h
  | ok a => exact ⟨a, rfl, h⟩

theorem ok_of_mapError {f : ε → ε'} (h : x.mapError f = .ok a) : x = .ok a := by
  cases x with
  | error e => cases h
  | ok a' => exact congrArg Except.ok (Except.ok.inj h)

theorem check_eq_ok {rest : PUnit → Except ε α} :
    (if c then (throw e : Except ε PUnit) >>= rest else rest ⟨⟩) = .ok a ↔
      ¬c ∧ rest ⟨⟩ = .ok a := by
  by_cases wrong : c
  · rw [if_pos wrong]
    exact ⟨nofun, fun right => absurd wrong right.1⟩
  · rw [if_neg wrong]
    exact ⟨fun done => ⟨wrong, done⟩, And.right⟩

theorem last_check_eq_ok : (if c then throw e else pure a : Except ε α) = .ok a ↔ ¬c := by
  by_cases wrong : c
  · rw [if_pos wrong]
    exact ⟨nofun, fun right => absurd wrong right⟩
  · rw [if_neg wrong]
    exact ⟨fun _ => wrong, fun _ => rfl⟩

end Checks

namespace Call

variable {ε ε' σ τ α β : Type}

@[simp] theorem exec_of (f : σ → Except ε α × σ) (s : σ) : (of f).exec s = f s := rfl

@[simp] theorem exec_onPart (get : τ → σ) (set : τ → σ → τ) (rename : ε → ε')
    (call : Call ε σ α) (t : τ) :
    (call.onPart get set rename).exec t =
      ((call.exec (get t)).1.mapError rename, set t (call.exec (get t)).2) := rfl

@[simp] theorem exec_mapError (rename : ε → ε') (call : Call ε σ α) (s : σ) :
    (call.mapError rename).exec s = ((call.exec s).1.mapError rename, (call.exec s).2) := rfl

theorem exec_lift (e : Except ε α) (s : σ) : (liftM e : Call ε σ α).exec s = (e, s) := rfl

theorem mapError_id (result : Except ε α) : result.mapError id = result := by
  cases result <;> rfl

theorem ok_inj {a a' : α} {s s' : σ} (same : ((.ok a, s) : Except ε α × σ) = (.ok a', s')) :
    a = a' ∧ s = s' :=
  (Prod.mk.inj same).imp_left Except.ok.inj

theorem exec_bind (x : Call ε σ α) (f : α → Call ε σ β) (s : σ) :
    (x >>= f).exec s =
      match (x.exec s).1 with
      | .ok a => (f a).exec (x.exec s).2
      | .error e => (.error e, (x.exec s).2) := by
  change (ExceptT.bindCont f (x.exec s).1).run (x.exec s).2 = _
  cases (x.exec s).1 <;> rfl

theorem exec_bind_ok {x : Call ε σ α} {f : α → Call ε σ β} {s t : σ} {a : α}
    (h : x.exec s = (.ok a, t)) : (x >>= f).exec s = (f a).exec t := by
  rw [exec_bind, h]

theorem ok_of_exec_bind {x : Call ε σ α} {f : α → Call ε σ β} {s t : σ} {b : β}
    (h : (x >>= f).exec s = (.ok b, t)) :
    ∃ a s', x.exec s = (.ok a, s') ∧ (f a).exec s' = (.ok b, t) := by
  rw [exec_bind] at h
  cases result : (x.exec s).1 with
  | error e => rw [result] at h; cases h
  | ok a => rw [result] at h; exact ⟨a, _, Prod.ext result rfl, h⟩

theorem exec_bind_error {x : Call ε σ α} {f : α → Call ε σ β} {s t : σ} {e : ε}
    (h : x.exec s = (.error e, t)) : (x >>= f).exec s = (.error e, t) := by
  rw [exec_bind, h]

theorem exec_tryCatch (x : Call ε σ α) (handle : ε → Call ε σ α) (s : σ) :
    (tryCatch x handle).exec s =
      match (x.exec s).1 with
      | .ok a => (.ok a, (x.exec s).2)
      | .error e => (handle e).exec (x.exec s).2 := by
  change ((match (x.exec s).1 with
    | .ok a => (pure (.ok a) : StateM σ (Except ε α))
    | .error e => (handle e).run) (x.exec s).2) = _
  cases (x.exec s).1 <;> rfl

theorem ok_of_toOption {result : Except ε α} {a : α} (h : result.toOption = some a) :
    result = .ok a := by
  cases result with
  | error e => cases h
  | ok a' => exact congrArg Except.ok (Option.some.inj h)

def failure? : Except ε α → Option ε
  | .error e => some e
  | .ok _ => none

theorem error_of_failure {result : Except ε α} {e : ε} (h : failure? result = some e) :
    result = .error e := by
  cases result with
  | error e' => exact congrArg Except.error (Option.some.inj h)
  | ok a => cases h

section Failing

variable {p : ε → Prop} {p' : ε' → Prop} {call other : Call ε σ α} {f : α → Call ε σ β}

def Fails (p : ε → Prop) (call : Call ε σ α) : Prop := ∀ x e, (call.exec x).1 = .error e → p e

namespace Fails

theorem bind (first : Fails p call) (rest : ∀ a, Fails p (f a)) : Fails p (call >>= f) := by
  intro x e failed
  rw [exec_bind] at failed
  cases result : (call.exec x).1 with
  | ok a =>
    rw [result] at failed
    exact rest a _ e failed
  | error e' =>
    rw [result] at failed
    obtain rfl := Except.error.inj failed
    exact first x e' result

theorem pure (a : α) : Fails p (Pure.pure a : Call ε σ α) := fun _ _ => nofun

theorem throw {e : ε} (kind : p e) : Fails p (MonadExcept.throw e : Call ε σ α) :=
  fun _ _ failed => Except.error.inj failed ▸ kind

theorem lift {result : Except ε α} (kind : ∀ e, result = .error e → p e) :
    Fails p (liftM result : Call ε σ α) := fun _ => kind

theorem query {f : σ → Except ε α} (kind : ∀ s e, f s = .error e → p e) :
    Fails p (query f) := kind

theorem mapError {rename : ε → ε'} (fails : Fails (fun e => p' (rename e)) call) :
    Fails p' (call.mapError rename) := by
  intro x e failed
  rw [exec_mapError] at failed
  cases result : (call.exec x).1 with
  | ok a =>
    rw [result] at failed
    cases failed
  | error e' =>
    rw [result] at failed
    exact Except.error.inj failed ▸ fails x e' result

theorem ite {c : Prop} [Decidable c] (yes : Fails p call) (no : Fails p other) :
    Fails p (if c then call else other) := by
  split
  · exact yes
  · exact no

theorem guarded {c : Prop} [Decidable c] {e : ε} {rest : Unit → Call ε σ α} (kind : p e)
    (after : Fails p (rest ())) :
    Fails p (if c then MonadExcept.throw e >>= rest else rest ()) :=
  .ite (.bind (.throw kind) fun _ => after) after

end Fails

end Failing

end Call

namespace Unreliable

variable {κ φ σ ε α : Type} [DecidableEq κ]

theorem meet_cases (u : Unreliable κ φ σ) (kind : κ) :
    (∃ o ∈ u.outages, o.kind = kind ∧ u.meet kind = .error o.fault) ∨
      ∃ left : List (Outage κ φ), u.meet kind = .ok ⟨u.service, left⟩ ∧
        ∀ o ∈ left, ∃ o' ∈ u.outages, o'.kind = o.kind ∧ o'.fault = o.fault := by
  unfold meet
  cases met : u.outages.find? (·.kind = kind) with
  | none => exact .inr ⟨u.outages, rfl, fun o mem => ⟨o, mem, rfl, rfl⟩⟩
  | some o =>
    have mem := List.mem_of_find?_eq_some met
    have same : o.kind = kind := by simpa using List.find?_some met
    obtain ⟨_, _ | n, fault⟩ := o
    · exact .inl ⟨_, mem, same, rfl⟩
    · refine .inr ⟨_, rfl, fun o' mem' => ?_⟩
      rcases List.mem_cons.mp mem' with rfl | old
      · -- Counting an outage down changes neither its kind nor its fault.
        exact ⟨_, mem, same, rfl⟩
      · exact ⟨o', (List.mem_filter.mp old).1, rfl, rfl⟩

theorem exec_guard_cases (kind : κ) (failed : φ → Except ε α) (call : Call ε σ α)
    (u : Unreliable κ φ σ) :
    (∃ o ∈ u.outages, o.kind = kind ∧ (guard kind failed call).exec u = (failed o.fault, u)) ∨
      ∃ left : List (Outage κ φ),
        (guard kind failed call).exec u =
          ((call.exec u.service).1, ⟨(call.exec u.service).2, left⟩) ∧
        ∀ o ∈ left, ∃ o' ∈ u.outages, o'.kind = o.kind ∧ o'.fault = o.fault := by
  rcases u.meet_cases kind with ⟨o, mem, same, met⟩ | ⟨left, met, old⟩
  · exact .inl ⟨o, mem, same, by simp [guard, met]⟩
  · exact .inr ⟨left, by simp [guard, met], old⟩

def admits (outages : List (Outage κ φ)) (kind : κ) (n : Nat) : Bool :=
  (outages.find? (·.kind = kind)).all (n ≤ ·.after)

theorem admits_of_succ {outages : List (Outage κ φ)} {kind : κ} {n : Nat}
    (h : admits outages kind (n + 1) = true) : admits outages kind n = true := by
  unfold admits at h ⊢
  cases met : outages.find? (·.kind = kind) with
  | none => rfl
  | some o =>
    rw [met] at h
    have enough : n + 1 ≤ o.after := by simpa using h
    simpa using Nat.le_of_succ_le enough

def Spends (kind : κ) (outages left : List (Outage κ φ)) : Prop :=
  ∀ k n, admits left k n = admits outages k (if k = kind then n + 1 else n)

theorem meet_refused {u : Unreliable κ φ σ} {kind : κ} (refused : admits u.outages kind 1 = false) :
    ∃ o ∈ u.outages, u.meet kind = .error o.fault := by
  unfold meet
  unfold admits at refused
  cases met : u.outages.find? (·.kind = kind) with
  | none => simp [met] at refused
  | some o =>
    obtain ⟨_, _ | n, fault⟩ := o
    · exact ⟨_, List.mem_of_find?_eq_some met, rfl⟩
    · simp [met] at refused

theorem meet_admitted {u : Unreliable κ φ σ} {kind : κ} (admitted : admits u.outages kind 1 = true) :
    ∃ left, u.meet kind = .ok ⟨u.service, left⟩ ∧ Spends kind u.outages left := by
  unfold meet
  unfold admits at admitted
  cases met : u.outages.find? (·.kind = kind) with
  | none =>
    refine ⟨u.outages, rfl, fun k n => ?_⟩
    by_cases same : k = kind
    · subst same
      simp [admits, met]
    · rw [if_neg same]
  | some o =>
    obtain ⟨kind', _ | left, fault⟩ := o
    · simp [met] at admitted
    · refine ⟨_, rfl, fun k n => ?_⟩
      by_cases same : k = kind
      · subst same
        simp [admits, met]
      · -- Announcing what is left for one kind touches the outages of that kind only.
        have others (o : Outage κ φ) :
            decide (decide (o.kind ≠ kind) = true ∧ decide (o.kind = k) = true) =
              decide (o.kind = k) := by
          by_cases own : o.kind = k <;> simp [own, same]
        simp only [admits, mend, if_neg same]
        rw [List.find?_cons_of_neg (by simp [Ne.symm same]), List.find?_filter]
        simp only [others]

theorem exec_guard_refused {kind : κ} (failed : φ → Except ε α) (call : Call ε σ α)
    {u : Unreliable κ φ σ} (refused : admits u.outages kind 1 = false) :
    ∃ o ∈ u.outages, (guard kind failed call).exec u = (failed o.fault, u) := by
  obtain ⟨o, mem, met⟩ := meet_refused refused
  exact ⟨o, mem, by simp [guard, met]⟩

theorem exec_guard_admitted {kind : κ} (failed : φ → Except ε α) (call : Call ε σ α)
    {u : Unreliable κ φ σ} (admitted : admits u.outages kind 1 = true) :
    ∃ left, (guard kind failed call).exec u =
        ((call.exec u.service).1, ⟨(call.exec u.service).2, left⟩) ∧
      Spends kind u.outages left := by
  obtain ⟨left, met, spends⟩ := meet_admitted admitted
  exact ⟨left, by simp [guard, met], spends⟩

end Unreliable

end LedgerBroker
