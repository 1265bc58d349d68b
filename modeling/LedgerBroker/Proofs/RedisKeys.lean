import LedgerBroker.Proofs.Call
import LedgerBroker.Proofs.Membership
import LedgerBroker.Store.Redis

set_option autoImplicit false

namespace LedgerBroker

namespace Redis

namespace Keyspace

variable {k k' : Keyspace} {key index member : String} {p q : String → Prop}

@[simp] theorem lookup_put (entry : Entry) (other : String) :
    (k.put key entry).lookup other = if other = key then some entry else k.lookup other := by
  simp only [put, remove, lookup, lookup_cons, lookup_filter]
  by_cases same : other = key <;> simp [same]

@[simp] theorem lookup_remove (other : String) :
    (k.remove key).lookup other = if other = key then none else k.lookup other :=
  lookup_filter k.entries

def Has (k : Keyspace) (key : String) (p : String → Prop) : Prop :=
  ∃ members, k.members key = .ok members ∧ members.Nodup ∧ ∀ m, m ∈ members ↔ p m

theorem Has.congr (has : k.Has key p) (same : k'.lookup key = k.lookup key)
    (iff : ∀ m, p m ↔ q m) : k'.Has key q := by
  obtain ⟨members, found, once, mem⟩ := has
  exact ⟨members, by simpa [Keyspace.members, same] using found, once,
    fun m => (mem m).trans (iff m)⟩

theorem lookup_addMember (members : List String) {other : String} (apart : other ≠ key) :
    (k.addMember key member members).lookup other = k.lookup other := by
  unfold addMember
  split <;> simp [apart]

theorem lookup_removeMember (members : List String) {other : String} (apart : other ≠ key) :
    (k.removeMember key member members).lookup other = k.lookup other := by
  simp only [removeMember]
  split <;> simp [apart]

theorem Has.addMember (has : k.Has key p) (member : String) :
    ∃ k', (k.members key).map (k.addMember key member) = .ok k' ∧
      k'.Has key (fun m => m = member ∨ p m) ∧
      ∀ other, other ≠ key → k'.lookup other = k.lookup other := by
  obtain ⟨members, found, once, mem⟩ := has
  refine ⟨_, by rw [found]; rfl, ?_, fun _ apart => lookup_addMember members apart⟩
  by_cases known : member ∈ members
  · have old : p member := (mem member).mp known
    refine ⟨members, by simp [Keyspace.addMember, known, found], once, fun m => ?_⟩
    by_cases same : m = member <;> simp [mem, same, old]
  · refine ⟨members ++ [member], by simp [Keyspace.addMember, known, Keyspace.members], ?_, ?_⟩
    · refine List.nodup_append.mpr ⟨once, by simp, fun m there n new same => ?_⟩
      exact known (same.trans (List.mem_singleton.mp new) ▸ there)
    · simp [mem, or_comm]

theorem Has.removeMember (has : k.Has key p) (member : String) :
    ∃ k', (k.members key).map (k.removeMember key member) = .ok k' ∧
      k'.Has key (fun m => m ≠ member ∧ p m) ∧
      ∀ other, other ≠ key → k'.lookup other = k.lookup other := by
  obtain ⟨members, found, once, mem⟩ := has
  refine ⟨_, by rw [found]; rfl, ?_, fun _ apart => lookup_removeMember members apart⟩
  refine ⟨members.filter (· ≠ member), ?_, once.filter _, by simp [mem, and_comm]⟩
  simp only [Keyspace.removeMember]
  -- The last member takes the set along.
  by_cases emptied : members.filter (· ≠ member) = []
  · rw [if_pos emptied, emptied]
    simp [Keyspace.members]
  · rw [if_neg emptied]
    simp [Keyspace.members]

structure Files (k k' : Keyspace) (key : String) (entry : Option Entry) (index : String)
    (p : String → Prop) : Prop where
  record : k'.lookup key = entry
  listed : k'.Has index p
  others : ∀ other, other ≠ key → other ≠ index → k'.lookup other = k.lookup other

theorem Files.of_parts {k₁ : Keyspace} {entry : Option Entry} (apart : index ≠ key)
    (recorded : ∀ other, k₁.lookup other = if other = key then entry else k.lookup other)
    (listed : k'.Has index p)
    (others : ∀ other, other ≠ index → k'.lookup other = k₁.lookup other) :
    Files k k' key entry index p where
  record := by rw [others key apart.symm, recorded, if_pos rfl]
  listed := listed
  others other ne ne' := by rw [others other ne', recorded, if_neg ne]

end Keyspace

namespace Server

variable {s : Server} {key index : String} {p : String → Prop}

theorem receive_all (all : List (List String)) :
    (all.foldl receive s).keys = s.keys ∧ (all.foldl receive s).refused = s.refused := by
  induction all generalizing s with
  | nil => exact ⟨rfl, rfl⟩
  | cons words rest ih => exact ih

theorem carryOut_faithful (faithful : s.refused = []) (c : Command) :
    s.carryOut c = s.keys.apply c := by
  simp [carryOut, refusal?, faithful]

theorem exec_get (faithful : s.refused = []) {stored : Option String}
    (found : s.keys.string? key = .ok stored) :
    (get key).exec s = (.ok stored, s.receive ["GET", key]) := by
  simp only [get, ask, Call.exec_of, carryOut_faithful faithful, Keyspace.apply, found]
  rfl

theorem exec_smembers (faithful : s.refused = []) (has : s.keys.Has key p) :
    ∃ ids, (smembers key).exec s = (.ok ids, s.receive ["SMEMBERS", key]) ∧ ids.Nodup ∧
      ∀ id, id ∈ ids ↔ p id := by
  obtain ⟨members, found, once, mem⟩ := has
  have perm := s.listing.perm s.received.length members
  refine ⟨s.listing.order s.received.length members, ?_, perm.nodup_iff.mpr once,
    fun id => perm.mem_iff.trans (mem id)⟩
  simp only [smembers, ask, Call.exec_of, carryOut_faithful faithful, Keyspace.apply, found]
  rfl

theorem exec_pair (faithful : s.refused = []) (c c' : Command) {k k' : Keyspace}
    (first : s.keys.apply c = .ok k) (second : k.apply c' = .ok k') :
    ∃ t, (transaction [c, c']).exec s = (.ok (), t) ∧ t.refused = [] ∧ t.keys = k' := by
  obtain ⟨keys, refused⟩ := receive_all (s := s) (["MULTI"] :: ([c, c'].map (·.words) ++ [["EXEC"]]))
  simp only [transaction, Call.exec_of, runAll]
  generalize (["MULTI"] :: ([c, c'].map (·.words) ++ [["EXEC"]])).foldl receive s = s' at *
  have faithful' : s'.refused = [] := refused.trans faithful
  refine ⟨{ s' with keys := k' }, ?_, faithful', rfl⟩
  rw [carryOut_faithful faithful', keys, first]
  dsimp only
  rw [carryOut_faithful (by exact faithful'), second]
  rfl

theorem exec_write (value member : String) (faithful : s.refused = []) (apart : index ≠ key)
    (has : s.keys.Has index p) :
    ∃ t, (transaction [.set key value, .sadd index member]).exec s = (.ok (), t) ∧
      t.refused = [] ∧ s.keys.Files t.keys key (some (.string value)) index
        fun m => m = member ∨ p m := by
  have kept : (s.keys.put key (.string value)).lookup index = s.keys.lookup index := by
    simp [apart]
  obtain ⟨k', added, has', others⟩ := (has.congr kept fun _ => Iff.rfl).addMember member
  obtain ⟨t, done, faithful', rfl⟩ := exec_pair faithful (.set key value) (.sadd index member) rfl added
  exact ⟨t, done, faithful', .of_parts apart (Keyspace.lookup_put _) has' others⟩

theorem exec_erase (member : String) (faithful : s.refused = []) (apart : index ≠ key)
    (has : s.keys.Has index p) :
    ∃ t, (transaction [.del key, .srem index member]).exec s = (.ok (), t) ∧
      t.refused = [] ∧ s.keys.Files t.keys key none index fun m => m ≠ member ∧ p m := by
  have kept : (s.keys.remove key).lookup index = s.keys.lookup index := by
    simp [apart]
  obtain ⟨k', removed, has', others⟩ := (has.congr kept fun _ => Iff.rfl).removeMember member
  obtain ⟨t, done, faithful', rfl⟩ := exec_pair faithful (.del key) (.srem index member) rfl removed
  exact ⟨t, done, faithful', .of_parts apart Keyspace.lookup_remove has' others⟩

end Server

end Redis

namespace RedisStore

open Redis (Server Command Entry)

section Keys

variable {id other : String} {n : Nat} {c d : Char}

theorem char_append {p : String} (char : p.toList[n]? = some c) (x : String) :
    (p ++ x).toList[n]? = some c := by
  obtain ⟨short, -⟩ := List.getElem?_eq_some_iff.mp char
  rw [String.toList_append, List.getElem?_append_left short, char]

theorem ne_of_char {x y : String} (left : x.toList[n]? = some c) (right : y.toList[n]? = some d)
    (differ : c ≠ d) : x ≠ y := by
  intro same
  rw [same, right] at left
  exact differ (Option.some.inj left).symm

theorem instanceKey_char : (instanceKey id).toList[8]? = some ':' := char_append (by decide) id

theorem bindingsKey_char : (bindingsKey id).toList[8]? = some '_' := char_append (by decide) id

theorem instancesKey_char : instancesKey.toList[8]? = some 's' := by decide

theorem bindingKey_char : (bindingKey id).toList[0]? = some 'b' := char_append (by decide) id

theorem instanceKey_inj : instanceKey id = instanceKey other ↔ id = other :=
  String.append_right_inj _

theorem bindingKey_inj : bindingKey id = bindingKey other ↔ id = other :=
  String.append_right_inj _

theorem bindingsKey_inj : bindingsKey id = bindingsKey other ↔ id = other :=
  String.append_right_inj _

theorem instanceKey_ne_instancesKey : instanceKey id ≠ instancesKey :=
  ne_of_char instanceKey_char instancesKey_char (by decide)

theorem instanceKey_ne_bindingsKey : instanceKey id ≠ bindingsKey other :=
  ne_of_char instanceKey_char bindingsKey_char (by decide)

theorem bindingsKey_ne_instancesKey : bindingsKey id ≠ instancesKey :=
  ne_of_char bindingsKey_char instancesKey_char (by decide)

theorem bindingKey_ne_instanceKey : bindingKey id ≠ instanceKey other :=
  ne_of_char bindingKey_char (char_append (c := 'i') (by decide) other) (by decide)

theorem bindingKey_ne_bindingsKey : bindingKey id ≠ bindingsKey other :=
  ne_of_char bindingKey_char (char_append (c := 'i') (by decide) other) (by decide)

theorem bindingKey_ne_instancesKey : bindingKey id ≠ instancesKey :=
  ne_of_char (d := 'i') bindingKey_char (by decide) (by decide)

end Keys

end RedisStore

end LedgerBroker
