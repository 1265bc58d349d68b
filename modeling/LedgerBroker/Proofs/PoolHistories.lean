import LedgerBroker.Proofs.Call
import LedgerBroker.Proofs.Membership
import Mathlib.Data.List.Nodup

set_option autoImplicit false

namespace LedgerBroker

theorem nodup_eraseDups (names : List String) : names.eraseDups.Nodup := by
  match names with
  | [] => exact List.nodup_nil
  | name :: rest =>
    rw [List.eraseDups_cons, List.nodup_cons]
    -- What is left has no copy of the first name, and is looked at in the same way.
    refine ⟨fun again => ?_, nodup_eraseDups _⟩
    simpa using List.of_mem_filter (List.mem_eraseDups.mp again)
termination_by names.length
decreasing_by exact Nat.lt_succ_of_le (List.length_filter_le _ _)

namespace NetworkPool

inductive Move
  | acquire (choice : Nat)
  | release (name : String)
  | quarantine (deployment network : String)
  | refresh (instances : List Instance) (unrecorded : List (String × String))

def after (p : NetworkPool) : Move → NetworkPool
  | .acquire choice =>
    match p.acquire choice with
    | .ok (_, q) => q
    | .error _ => p
  | .release name => p.release name
  | .quarantine deployment network => p.quarantine deployment network
  | .refresh instances unrecorded => p.refresh instances unrecorded

def afterAll (p : NetworkPool) (moves : List Move) : NetworkPool := moves.foldl after p

/-- Only these let a network be handed out that is not free. -/
def Move.Returns (name : String) (m : Move) : Prop :=
  m = .release name ∨ ∃ instances unrecorded, m = .refresh instances unrecorded

variable {p q : NetworkPool} {name : String} {choice : Nat}

theorem after_cases {motive : Move → NetworkPool → Prop}
    (acquired : ∀ choice n q, p.acquire choice = .ok (n, q) → motive (.acquire choice) q)
    (refused : ∀ choice, motive (.acquire choice) p)
    (released : ∀ n, motive (.release n) (p.release n))
    (quarantined : ∀ deployment n, motive (.quarantine deployment n) (p.quarantine deployment n))
    (refreshed : ∀ instances unrecorded,
      motive (.refresh instances unrecorded) (p.refresh instances unrecorded))
    (m : Move) : motive m (p.after m) := by
  cases m with
  | acquire choice =>
    rw [after]
    split
    next q taken => exact acquired choice _ q taken
    next => exact refused choice
  | release n => exact released n
  | quarantine deployment n => exact quarantined deployment n
  | refresh instances unrecorded => exact refreshed instances unrecorded

structure Sound (p : NetworkPool) : Prop where
  configured : p.available ⊆ p.configured
  unheld : ∀ o ∈ p.orphans, o.2 ∉ p.available
  distinct : p.configured.Nodup
  once : p.available.Nodup

namespace Sound

theorem new (names : List String) : (new names).Sound where
  configured := List.Subset.refl _
  unheld := List.forall_mem_nil _
  distinct := nodup_eraseDups names
  once := nodup_eraseDups names

theorem acquired (h : p.Sound) (taken : p.acquire choice = .ok (name, q)) : q.Sound := by
  obtain ⟨free, rfl⟩ := acquire_ok taken
  exact ⟨fun n mem => h.configured (List.mem_of_mem_filter mem),
    fun o mem back => h.unheld o mem (List.mem_of_mem_filter back), h.distinct, h.once.filter _⟩

theorem released (h : p.Sound) (name : String) : (p.release name).Sound where
  configured n mem := by
    rw [configured_release]
    rcases mem_available_release.mp mem with old | ⟨rfl, known, _⟩
    · exact h.configured old
    · exact known
  unheld o mem free := by
    rw [orphans_release] at mem
    rcases mem_available_release.mp free with old | ⟨same, _, unheld⟩
    · exact h.unheld o mem old
    · exact not_isHeld_iff.mp unheld o mem same
  distinct := by rw [configured_release]; exact h.distinct
  once := by
    unfold release
    split
    next back =>
      -- A network that is free already is not put back once more.
      have taken : name ∉ p.available := by
        simp only [isAvailable, Bool.and_eq_true, Bool.not_eq_true', List.contains_eq_mem,
          decide_eq_false_iff_not] at back
        exact back.2
      refine List.nodup_append.mpr ⟨h.once, List.nodup_singleton name, fun n mem n' single => ?_⟩
      rw [List.mem_singleton.mp single]
      exact fun same => taken (same ▸ mem)
    next => exact h.once

theorem quarantined (h : p.Sound) (deployment network : String) :
    (p.quarantine deployment network).Sound where
  configured n mem := h.configured (mem_available_quarantine.mp mem).1
  unheld o mem free := by
    obtain ⟨old, other⟩ := mem_available_quarantine.mp free
    rcases mem_orphans_quarantine.mp mem with ⟨known, _⟩ | rfl
    · exact h.unheld o known old
    · exact other rfl
  distinct := h.distinct
  once := h.once.filter _

theorem refreshed (h : p.Sound) (instances : List Instance) (unrecorded : List (String × String)) :
    (p.refresh instances unrecorded).Sound where
  configured _ mem := (mem_available_refresh.mp mem).1
  unheld o mem free := (mem_available_refresh.mp free).2.2 o mem rfl
  distinct := h.distinct
  once := h.distinct.filter _

theorem after (h : p.Sound) (m : Move) : (p.after m).Sound :=
  after_cases (motive := fun _ => Sound) (fun _ _ _ taken => h.acquired taken) (fun _ => h)
    h.released h.quarantined h.refreshed m

theorem afterAll (h : p.Sound) (moves : List Move) : (p.afterAll moves).Sound := by
  induction moves generalizing p with
  | nil => exact h
  | cons m rest ih => exact ih (h.after m)

end Sound

theorem configured_after (m : Move) : (p.after m).configured = p.configured :=
  after_cases (motive := fun _ q => q.configured = p.configured)
    (fun _ _ _ taken => configured_acquire taken) (fun _ => rfl) (fun _ => configured_release)
    (fun _ _ => rfl) (fun _ _ => rfl) m

theorem configured_afterAll (moves : List Move) : (p.afterAll moves).configured = p.configured := by
  induction moves generalizing p with
  | nil => rfl
  | cons m rest ih => exact (ih (p := p.after m)).trans (configured_after m)

theorem not_mem_after (out : name ∉ p.available) (m : Move) (kept : ¬m.Returns name) :
    name ∉ (p.after m).available := by
  revert kept
  refine after_cases (motive := fun m q => ¬m.Returns name → name ∉ q.available)
    (fun _ n q taken _ => ?_) (fun _ _ => out) (fun n kept => ?_) (fun _ n _ => ?_)
    (fun instances unrecorded kept => ?_) m
  · exact fun free => out ((mem_available_acquire taken).mp free).1
  · intro free
    rcases mem_available_release.mp free with old | ⟨rfl, _⟩
    · exact out old
    · exact kept (.inl rfl)
  · exact fun free => out (mem_available_quarantine.mp free).1
  · exact absurd (.inr ⟨instances, unrecorded, rfl⟩) kept

theorem not_mem_afterAll (out : name ∉ p.available) (moves : List Move)
    (kept : ∀ m ∈ moves, ¬m.Returns name) : name ∉ (p.afterAll moves).available := by
  induction moves generalizing p with
  | nil => exact out
  | cons m rest ih =>
    exact ih (not_mem_after out m (kept m List.mem_cons_self))
      fun other mem => kept other (List.mem_cons_of_mem _ mem)

theorem acquire_error_iff {e : BrokerError} :
    p.acquire choice = .error e ↔ p.available = [] ∧ e = .networkUnavailable := by
  constructor
  · exact eq_nil_of_acquire
  · rintro ⟨none, rfl⟩
    simp [acquire, none]

theorem exists_choice (free : name ∈ p.available) :
    ∃ choice q, p.acquire choice = .ok (name, q) := by
  obtain ⟨choice, inside, rfl⟩ := List.mem_iff_getElem.mp free
  refine ⟨choice, { p with available := p.available.filter (· ≠ p.available[choice]) }, ?_⟩
  simp [acquire, Nat.mod_eq_of_lt inside, inside]

/-- Along every history a network is refused only where none is free; one that is handed out was free,
no longer is, and is handed out again only if it was returned in between. -/
theorem history_sound (names : List String) (moves : List Move) :
    let p := (new names).afterAll moves
    (p.configured = (new names).configured ∧ ∀ n, n ∈ p.configured ↔ n ∈ names) ∧ p.Sound ∧
    (∀ choice e, p.acquire choice = .error e ↔ p.available = [] ∧ e = .networkUnavailable) ∧
    (∀ name ∈ p.available, ∃ choice q, p.acquire choice = .ok (name, q)) ∧
    ∀ choice name q, p.acquire choice = .ok (name, q) →
      name ∈ p.available ∧ name ∉ q.available ∧
      ∀ later again q', (q.afterAll later).acquire again = .ok (name, q') →
        ∃ m ∈ later, m.Returns name := by
  intro p
  have configured : p.configured = (new names).configured := configured_afterAll moves
  refine ⟨⟨configured, fun n => ?_⟩, Sound.afterAll (.new names) moves,
    fun _ _ => acquire_error_iff, fun _ => exists_choice, fun choice name q taken => ?_⟩
  · rw [configured]
    exact List.mem_eraseDups
  · refine ⟨(acquire_ok taken).1, not_mem_acquire taken, fun later again q' retaken => ?_⟩
    by_contra kept
    have out := not_mem_afterAll (not_mem_acquire taken) later
      fun m mem returns => kept ⟨m, mem, returns⟩
    exact out (acquire_ok retaken).1

theorem history_sound_released :
    let p := (new ["net1", "net1"]).afterAll [.quarantine "lost" "net2", .release "net2"]
    let q : NetworkPool := ⟨["net1"], [], [("lost", "net2")]⟩
    p.acquire 5 = .ok ("net1", q) ∧ (q.afterAll [.release "net1"]).acquire 0 = .ok ("net1", q) ∧
      "net1" ∈ p.available ∧ "net1" ∉ q.available ∧
      ∃ m ∈ [Move.release "net1"], m.Returns "net1" := by
  intro p q
  have taken : p.acquire 5 = .ok ("net1", q) := Call.ok_of_toOption (by decide +kernel)
  have retaken : (q.afterAll [.release "net1"]).acquire 0 = .ok ("net1", q) :=
    Call.ok_of_toOption (by decide +kernel)
  obtain ⟨_, _, _, _, handed⟩ := history_sound ["net1", "net1"]
    [.quarantine "lost" "net2", .release "net2"]
  obtain ⟨free, out, returned⟩ := handed 5 "net1" q taken
  exact ⟨taken, retaken, free, out, returned _ 0 q retaken⟩

end NetworkPool

end LedgerBroker
