import LedgerBroker.Proofs.Mirroring

set_option autoImplicit false

namespace LedgerBroker

namespace Call

variable {ε ε' σ σ' τ τ' α α' β β' γ : Type} {rel mid post : σ → τ → Prop} {R : α → β → Prop}
  {S : α' → β' → Prop} {x : Call ε σ α} {t : τ} {y : Call ε τ β}

/-- Beside the call `y` that is begun in `t`, the call `x` ends in a related way. -/
def Lockstep (rel post : σ → τ → Prop) (R : α → β → Prop) (x : Call ε σ α) (t : τ)
    (y : Call ε τ β) : Prop :=
  ∀ s, rel s t → Alike R (x.exec s).1 (y.exec t).1 ∧ post (x.exec s).2 (y.exec t).2

namespace Lockstep

theorem pure {a : α} {b : β} (related : R a b) :
    Lockstep rel rel R (Pure.pure a : Call ε σ α) t (Pure.pure b) :=
  fun _ before => ⟨.ok related, before⟩

theorem throw (e : ε) :
    Lockstep rel rel R (MonadExcept.throw e : Call ε σ α) t (MonadExcept.throw e) :=
  fun _ before => ⟨.error e, before⟩

theorem refused {f : γ → Call ε σ α} {f' : γ → Call ε τ β} (e : ε) :
    Lockstep rel rel R (MonadExcept.throw e >>= f) t (MonadExcept.throw e >>= f') :=
  fun _ before => ⟨.error e, before⟩

theorem assuming (h : ∀ s, rel s t → Lockstep rel post R x t y) : Lockstep rel post R x t y :=
  fun s before => h s before s before

theorem mono (h : Lockstep rel mid R x t y) (weaker : ∀ s t, mid s t → post s t) :
    Lockstep rel post R x t y :=
  fun s before => (h s before).imp_right (weaker _ _)

theorem andThen {f : α → Call ε σ α'} {f' : β → Call ε τ β'} (first : Lockstep rel mid R x t y)
    (weaker : ∀ s t, mid s t → post s t)
    (rest : ∀ a b t', R a b → y.exec t = (.ok b, t') → Lockstep mid post S (f a) t' (f' b)) :
    Lockstep rel post S (x >>= f) t (y >>= f') := by
  intro s before
  obtain ⟨alike, after⟩ := first s before
  rw [exec_bind, exec_bind]
  generalize left : x.exec s = done at alike after
  generalize right : y.exec t = done' at alike after
  obtain ⟨result, s'⟩ := done
  obtain ⟨result', t'⟩ := done'
  cases alike with
  | ok related => exact rest _ _ t' related right s' after
  | error e => exact ⟨.error e, weaker _ _ after⟩

theorem bind {f : α → Call ε σ α'} {f' : β → Call ε τ β'} (first : Lockstep rel post R x t y)
    (rest : ∀ a b t', R a b → y.exec t = (.ok b, t') → Lockstep post post S (f a) t' (f' b)) :
    Lockstep rel post S (x >>= f) t (y >>= f') :=
  first.andThen (fun _ _ after => after) rest

theorem get {f : σ → Call ε σ α} {f' : τ → Call ε τ β}
    (rest : ∀ s, rel s t → Lockstep rel post R (f s) t (f' t)) :
    Lockstep rel post R (MonadState.get >>= f) t (MonadState.get >>= f') :=
  fun s before => rest s before s before

theorem map {f : α → γ} {f' : β → γ} (h : Lockstep rel post R x t y)
    (same : ∀ a b, R a b → f a = f' b) : Lockstep rel post Eq (f <$> x) t (f' <$> y) := by
  rw [map_eq_pure_bind, map_eq_pure_bind]
  exact h.bind fun a b _ related _ => .pure (same a b related)

theorem tryCatch {handle : ε → Call ε σ α} {handle' : ε → Call ε τ β}
    (first : Lockstep rel mid R x t y)
    (weaker : ∀ s t, mid s t → post s t)
    (rest : ∀ e, Lockstep mid post R (handle e) (y.exec t).2 (handle' e)) :
    Lockstep rel post R (MonadExcept.tryCatch x handle) t (MonadExcept.tryCatch y handle') := by
  intro s before
  obtain ⟨alike, after⟩ := first s before
  have left := exec_tryCatch x handle s
  have right := exec_tryCatch y handle' t
  generalize (x.exec s).1 = result at alike left
  generalize (y.exec t).1 = result' at alike right
  rw [left, right]
  cases alike with
  | ok related => exact ⟨.ok related, weaker _ _ after⟩
  | error e => exact rest e _ after

theorem ite {c c' : Prop} [Decidable c] [Decidable c'] {x' : Call ε σ α} {y' : Call ε τ β}
    (iff : c ↔ c') (pos : c' → Lockstep rel post R x t y)
    (neg : ¬c' → Lockstep rel post R x' t y') :
    Lockstep rel post R (if c then x else x') t (if c' then y else y') := by
  by_cases h : c'
  · rw [if_pos (iff.mpr h), if_pos h]
    exact pos h
  · rw [if_neg (mt iff.mp h), if_neg h]
    exact neg h

theorem onPart {part : σ' → τ' → Prop} {get : σ → σ'} {get' : τ → τ'} {set : σ → σ' → σ}
    {set' : τ → τ' → τ} {call : Call ε' σ' α} {call' : Call ε' τ' β} (rename : ε' → ε)
    (inner : Lockstep part part R call (get' t) call')
    (parts : ∀ s, rel s t → part (get s) (get' t))
    (whole : ∀ s u v, rel s t → part u v → rel (set s u) (set' t v)) :
    Lockstep rel rel R (call.onPart get set rename) t (call'.onPart get' set' rename) := by
  intro s before
  obtain ⟨alike, after⟩ := inner (get s) (parts s before)
  exact ⟨alike.mapError rename, whole s _ _ before after⟩

end Lockstep

end Call

namespace Unreliable

open Call (Lockstep)

variable {κ φ σ τ ε α β : Type} [DecidableEq κ] {rel : σ → τ → Prop} {R : α → β → Prop}
  {u : Unreliable κ φ σ} {v : Unreliable κ φ τ}

structure Both (rel : σ → τ → Prop) (u : Unreliable κ φ σ) (v : Unreliable κ φ τ) : Prop where
  service : rel u.service v.service
  outages : u.outages = v.outages

namespace Both

theorem mend (both : Both rel u v) (kind : κ) : Both rel (u.mend kind) (v.mend kind) :=
  ⟨both.service, congrArg (List.filter _) both.outages⟩

theorem announce (both : Both rel u v) (outage : Outage κ φ) :
    Both rel (u.announce outage) (v.announce outage) :=
  ⟨both.service, congrArg (outage :: ·) (both.mend outage.kind).outages⟩

theorem meet (both : Both rel u v) (kind : κ) :
    Alike (fun u' v' => Both rel u' v' ∧ v'.service = v.service) (u.meet kind) (v.meet kind) := by
  unfold Unreliable.meet
  rw [both.outages]
  split
  · exact .ok ⟨both, rfl⟩
  · exact .error _
  · exact .ok ⟨both.announce _, rfl⟩

end Both

theorem guard_lockstep {call : Call ε σ α} {call' : Call ε τ β} (kind : κ)
    {failed : φ → Except ε α} {failed' : φ → Except ε β}
    (fails : ∀ fault, Alike R (failed fault) (failed' fault))
    (inner : Lockstep rel rel R call v.service call') :
    Lockstep (Both rel) (Both rel) R (guard kind failed call) v (guard kind failed' call') := by
  intro u both
  have met := both.meet kind
  simp only [guard, Call.exec_of]
  generalize u.meet kind = result at met
  generalize v.meet kind = result' at met
  cases met with
  | error fault => exact ⟨fails fault, both⟩
  | ok counted =>
    obtain ⟨counted, same⟩ := counted
    rw [← same] at inner
    obtain ⟨alike, after⟩ := inner _ counted.service
    exact ⟨alike, after, counted.outages⟩

end Unreliable

end LedgerBroker
