import LedgerBroker.Network.Pool
import LedgerBroker.Store.Memory

set_option autoImplicit false

namespace LedgerBroker

section Lookup

variable {α : Type} {key other : String}

theorem lookup_cons (entry : String × α) (rest : List (String × α)) :
    (entry :: rest).lookup other = if other = entry.1 then some entry.2 else rest.lookup other := by
  by_cases same : other = entry.1
  · rw [List.lookup_cons, if_pos same, beq_iff_eq.mpr same]
  · rw [List.lookup_cons, if_neg same, beq_false_of_ne same]

theorem lookup_filter (entries : List (String × α)) :
    (entries.filter (·.1 ≠ key)).lookup other =
      if other = key then none else entries.lookup other := by
  induction entries with
  | nil => simp
  | cons entry rest ih =>
    rw [List.filter_cons, lookup_cons]
    by_cases dropped : entry.1 = key
    · rw [if_neg (by simp [dropped]), ih]
      by_cases same : other = key <;> simp [same, dropped]
    · rw [if_pos (by simp [dropped]), lookup_cons, ih]
      by_cases same : other = entry.1
      · simp [same, dropped]
      · simp [same]

end Lookup

namespace NetworkPool

variable {p q : NetworkPool} {m n name : String}

theorem isHeld_iff : p.isHeld n = true ↔ ∃ o ∈ p.orphans, o.2 = n := by
  simp [isHeld]

theorem not_isHeld_iff : p.isHeld n = false ↔ ∀ o ∈ p.orphans, o.2 ≠ n := by
  simp [isHeld]

theorem ne_of_not_isOrphaned (h : p.isOrphaned name = false) {o : String × String}
    (mem : o ∈ p.orphans) : o.1 ≠ name := by
  intro same
  have known : p.isOrphaned name = true := List.any_eq_true.mpr ⟨o, mem, by simp [same]⟩
  exact nomatch known.symm.trans h

theorem acquire_ok {choice : Nat} (h : p.acquire choice = .ok (n, q)) :
    n ∈ p.available ∧ q = { p with available := p.available.filter (· ≠ n) } := by
  unfold acquire at h
  split at h
  next => cases h
  next network found =>
    obtain ⟨rfl, rfl⟩ := Prod.mk.inj (Except.ok.inj h)
    exact ⟨List.mem_of_getElem? found, rfl⟩

theorem eq_nil_of_acquire {choice : Nat} {e : BrokerError}
    (h : p.acquire choice = .error e) : p.available = [] ∧ e = .networkUnavailable := by
  unfold acquire at h
  split at h
  next none =>
    refine ⟨?_, (Except.error.inj h).symm⟩
    have past := List.getElem?_eq_none_iff.mp none
    refine Decidable.byContradiction fun some => ?_
    exact Nat.not_lt.mpr past (Nat.mod_lt choice (List.length_pos_iff.mpr some))
  next => cases h

theorem mem_available_acquire {choice : Nat} (h : p.acquire choice = .ok (n, q)) :
    m ∈ q.available ↔ m ∈ p.available ∧ m ≠ n := by
  rw [(acquire_ok h).2]
  simp

theorem orphans_acquire {choice : Nat} (h : p.acquire choice = .ok (n, q)) :
    q.orphans = p.orphans := by
  rw [(acquire_ok h).2]

theorem configured_acquire {choice : Nat} (h : p.acquire choice = .ok (n, q)) :
    q.configured = p.configured := by
  rw [(acquire_ok h).2]

theorem mem_available_release :
    m ∈ (p.release n).available ↔
      m ∈ p.available ∨ m = n ∧ n ∈ p.configured ∧ p.isHeld n = false := by
  unfold release isAvailable
  split
  next h => simp_all
  next h =>
    simp only [Bool.and_eq_true, List.contains_eq_mem, decide_eq_true_eq, Bool.not_eq_true',
      decide_eq_false_iff_not, not_and, Classical.not_not] at h
    refine ⟨.inl, ?_⟩
    rintro (free | ⟨rfl, configured, held⟩)
    · exact free
    · exact h ⟨configured, held⟩

theorem mem_of_release_acquired {choice : Nat} (h : p.acquire choice = .ok (n, q))
    (free : m ∈ (q.release n).available) : m ∈ p.available := by
  rcases mem_available_release.mp free with free | ⟨rfl, _⟩
  · exact ((mem_available_acquire h).mp free).1
  · exact (acquire_ok h).1

theorem not_mem_acquire {choice : Nat} (h : p.acquire choice = .ok (n, q)) : n ∉ q.available :=
  fun free => ((mem_available_acquire h).mp free).2 rfl

theorem mem_release_acquired {choice : Nat} (h : p.acquire choice = .ok (n, q)) :
    n ∈ (q.release n).available ↔ n ∈ p.configured ∧ p.isHeld n = false := by
  rw [mem_available_release]
  have taken := not_mem_acquire h
  obtain rfl := (acquire_ok h).2
  exact ⟨fun free => (free.resolve_left taken).2, fun back => .inr ⟨rfl, back⟩⟩

theorem mem_available_giveBack {choice : Nat} (h : p.acquire choice = .ok (n, q))
    (configured : n ∈ p.configured) (unheld : p.isHeld n = false) :
    m ∈ (q.release n).available ↔ m ∈ p.available := by
  refine ⟨mem_of_release_acquired h, fun free => ?_⟩
  by_cases same : m = n
  · subst same
    exact (mem_release_acquired h).mpr ⟨configured, unheld⟩
  · exact mem_available_release.mpr (.inl ((mem_available_acquire h).mpr ⟨free, same⟩))

@[simp] theorem orphans_release : (p.release n).orphans = p.orphans := by
  unfold release
  split <;> rfl

@[simp] theorem configured_release : (p.release n).configured = p.configured := by
  unfold release
  split <;> rfl

@[simp] theorem configured_quarantine : (p.quarantine name n).configured = p.configured := rfl

@[simp] theorem mem_available_quarantine :
    m ∈ (p.quarantine name n).available ↔ m ∈ p.available ∧ m ≠ n := by
  simp [quarantine]

@[simp] theorem mem_orphans_quarantine {o : String × String} :
    o ∈ (p.quarantine name n).orphans ↔ o ∈ p.orphans ∧ o.1 ≠ name ∨ o = (name, n) := by
  simp [quarantine]

variable {instances : List Instance} {unrecorded : List (String × String)}

@[simp] theorem configured_refresh :
    (p.refresh instances unrecorded).configured = p.configured := rfl

@[simp] theorem mem_orphans_refresh {o : String × String} :
    o ∈ (p.refresh instances unrecorded).orphans ↔ o ∈ unrecorded ∧ o.2 ∈ p.configured := by
  simp [refresh]

theorem mem_available_refresh :
    m ∈ (p.refresh instances unrecorded).available ↔ m ∈ p.configured ∧
      (∀ i ∈ instances, i.network ≠ m) ∧
        ∀ o ∈ (p.refresh instances unrecorded).orphans, o.2 ≠ m := by
  simp [refresh]

end NetworkPool

namespace MemoryStore

variable {s : MemoryStore} {i j : Instance} {id : String}

@[simp] theorem mem_putInstance :
    j ∈ (s.putInstance i).instances ↔ j ∈ s.instances ∧ j.id ≠ i.id ∨ j = i := by
  simp [putInstance]

@[simp] theorem mem_removeInstance :
    j ∈ (s.removeInstance id).instances ↔ j ∈ s.instances ∧ j.id ≠ id := by
  simp [removeInstance]

@[simp] theorem mem_putBinding {b c : Binding} :
    c ∈ (s.putBinding b).bindings ↔ c ∈ s.bindings ∧ c.id ≠ b.id ∨ c = b := by
  simp [putBinding]

@[simp] theorem mem_removeBinding {c : Binding} :
    c ∈ (s.removeBinding id).bindings ↔ c ∈ s.bindings ∧ c.id ≠ id := by
  simp [removeBinding]

theorem mem_of_find (h : s.instances.find? (·.id = id) = some i) :
    i ∈ s.instances ∧ i.id = id :=
  ⟨List.mem_of_find?_eq_some h, by simpa using List.find?_some h⟩

theorem removeInstance_ne (found : s.instances.find? (·.id = id) = some i) :
    s.removeInstance id ≠ s := by
  intro same
  have ⟨mem, own⟩ := mem_of_find found
  rw [← same] at mem
  exact (mem_removeInstance.mp mem).2 own

end MemoryStore

end LedgerBroker
