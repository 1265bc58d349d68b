import LedgerBroker.Proofs.JsonScalars
import LedgerBroker.Proofs.MachineListings

set_option autoImplicit false

namespace LedgerBroker.Json

open Reader
open VmLine (IsString IsMember)

theorem gives_string_iff {t : Bytes} {s : String} : Gives string t s ↔ IsString s t := by
  refine ⟨fun gives => ?_, IsString.gives⟩
  obtain ⟨l, between, led, read⟩ := ok_of_run_bind (gives.takes [] .nil)
  obtain ⟨b, c, u, blank, rfl, leads, split⟩ := ok_of_lead led
  cases l with
  | string =>
    obtain rfl := (first_of_leadOf leads).1 rfl
    obtain ⟨q, quotes, rfl⟩ := ok_of_stringBody ((run_bind_ok (run_skip _ _)).symm.trans read)
    exact ⟨b, q, blank, quotes_iff_spells.mp quotes, by simpa using split⟩
  | _ => exact (refuse_fails _ _ _ read).elim

theorem isMember_of_member {m : String × Bytes} {e : Bytes} (member : Member m e) :
    IsMember m e := by
  obtain ⟨value, _, ⟨b, q, c, blank, quotes, blank', rfl⟩, rfl⟩ := member
  exact ⟨_, c, ⟨b, q, blank, quotes_iff_spells.mp quotes, rfl⟩, blank', value, by simp⟩

/-- The document says this string under this name: of an object, the one member with the name is
the string; of an array, in which fields stand in their order, the element at this place is. -/
inductive Tells (name : String) (place : Nat) (s : String) : Bytes → Prop
  | object {b u c v : Bytes} {ms : List (String × Bytes)} (blank : Blank b)
      (listed : Listed IsMember true true ms u) (only : ms.filter (·.1 = name) = [(name, v)])
      (isString : IsString s v) (behind : Blank c) : Tells name place s (b ++ 0x7B :: u ++ c)
  | array {b u c v : Bytes} {vs : List Bytes} (blank : Blank b)
      (listed : Listed Element false true vs u) (here : vs[place]? = some v)
      (isString : IsString s v) (behind : Blank c) : Tells name place s (b ++ 0x5B :: u ++ c)

/-- Where it is an array, the document has so many elements at most. -/
def AtMost (most : Nat) (text : Bytes) : Prop :=
  ∀ b u c vs, Blank b → Listed Element false true vs u → Blank c → text = b ++ 0x5B :: u ++ c →
    vs.length ≤ most

theorem tells_write (name s : String) : Tells name 0 s (Json.obj [(name, .str s)]).write := by
  have isString := VmLine.isString_quote s
  have member := VmLine.isMember_quote name isString.gives.value
  have tells : Tells name 0 s _ :=
    .object .nil (.next rfl member (.close .nil)) (by simp) isString .nil
  simpa [Json.write, Json.writeFields, Json.closing] using tells

theorem atMost_object (most : Nat) (t : Bytes) : AtMost most (0x7B :: t) := by
  intro b u c vs blank _ _ split
  cases b with
  | nil => cases split
  | cons first b =>
    obtain rfl : 0x7B = first := (List.cons.inj split).1
    exact absurd (blank _ List.mem_cons_self) (by decide)

section Held

variable {α ρ : Type} {front back : List (Slot ρ)} {name : String} {get : ρ → Option α}
  {set : ρ → α → ρ} {reader : Reader α} {draft filled final : ρ}

structure Field (front back : List (Slot ρ)) (name : String) (get : ρ → Option α)
    (set : ρ → α → ρ) : Prop where
  first : ∀ slot ∈ front, slot.name ≠ name
  stores : ∀ draft a, get (set draft a) = some a
  spares : ∀ slot ∈ front ++ back, ∀ draft v filled, Gives (slot.fill draft) v filled →
    get filled = get draft

theorem of_gives_slot (exact : Exact reader) {v : Bytes}
    (gives : Gives ((Slot.of name get set reader).fill draft) v filled) :
    ∃ a, Gives reader v a ∧ filled = set draft a := by
  obtain ⟨a, _, read, done⟩ := ok_of_run_bind (gives.takes [] .nil)
  obtain ⟨rfl, rfl⟩ := Prod.mk.inj (Except.ok.inj done)
  obtain ⟨t, gives, split⟩ := exact.sound read
  rw [List.append_nil, List.append_nil] at split
  exact ⟨a, split ▸ gives, rfl⟩

theorem spares_of_slot {β : Type} {other : String} {get' : ρ → Option β} {set' : ρ → β → ρ}
    {reader : Reader β} (exact : Exact reader) {v : Bytes}
    (gives : Gives ((Slot.of other get' set' reader).fill draft) v filled)
    (spares : ∀ draft b, get (set' draft b) = get draft) : get filled = get draft := by
  obtain ⟨b, -, rfl⟩ := of_gives_slot exact gives
  exact spares draft b

theorem Field.found (field : Field front back name get set) :
    (front ++ Slot.of name get set reader :: back).find? (·.name = name) =
      some (.of name get set reader) := by
  have none : front.find? (·.name = name) = none := by
    simpa [List.find?_eq_none] using field.first
  rw [List.find?_append, none, Option.none_or, List.find?_cons_of_pos (by simp [Slot.of])]

theorem Gathers.held (field : Field front back name get set) (exact : Exact reader)
    {ms : List (String × Bytes)}
    (gathers : Gathers (front ++ Slot.of name get set reader :: back) ms draft final) :
    (ms.filter (·.1 = name) = [] ∧ get final = get draft) ∨
      (get draft = none ∧ ∃ v a, ms.filter (·.1 = name) = [(name, v)] ∧ Gives reader v a ∧
        get final = some a) := by
  -- The induction is on the members. A field that one of them fills is not filled by those behind.
  induction gathers with
  | done draft => exact .inl ⟨rfl, rfl⟩
  | @field n v ms slot draft filled final found free gives others ih =>
    by_cases isName : n = name
    · subst isName
      obtain rfl := Option.some.inj (found.symm.trans field.found)
      obtain ⟨a, here, rfl⟩ := of_gives_slot exact gives
      have unset : get draft = none := by simpa [Slot.of] using free
      rcases ih with ⟨noMore, kept⟩ | ⟨none, -⟩
      · refine .inr ⟨unset, v, a, ?_, here, kept.trans (field.stores draft a)⟩
        simp [noMore]
      · cases none.symm.trans (field.stores draft a)
    · have named : slot.name = n := by simpa using List.find?_some found
      have other : slot ∈ front ++ back := by
        have mem := List.mem_of_find?_eq_some found
        simp only [List.mem_append, List.mem_cons] at mem ⊢
        rcases mem with mem | rfl | mem
        · exact .inl mem
        · exact absurd named.symm isName
        · exact .inr mem
      rw [List.filter_cons_of_neg (by simp [isName])]
      rwa [field.spares slot other draft v filled gives] at ih
  | @other n v ms draft final missing others ih =>
    have isOther : n ≠ name := by
      rintro rfl
      cases missing.symm.trans field.found
    rwa [List.filter_cons_of_neg (by simp [isOther])]

theorem Reader.Places.spared {slots : List (Slot ρ)} {vs : List Bytes}
    (spares : ∀ slot ∈ slots, ∀ draft v filled, Gives (slot.fill draft) v filled →
      get filled = get draft)
    (places : Places slots vs draft final) : get final = get draft := by
  induction places with
  | done slots draft => rfl
  | @next slot slots v vs draft filled final gives others ih =>
    rw [ih fun slot mem => spares slot (List.mem_cons_of_mem _ mem),
      spares slot List.mem_cons_self draft v filled gives]

theorem Field.tail {slot : Slot ρ} (field : Field (slot :: front) back name get set) :
    Field front back name get set where
  first other mem := field.first other (List.mem_cons_of_mem _ mem)
  stores := field.stores
  spares other mem := field.spares other (List.mem_cons_of_mem _ mem)

theorem Reader.Places.held (field : Field front back name get set) (exact : Exact reader)
    {vs : List Bytes}
    (places : Places (front ++ Slot.of name get set reader :: back) vs draft final) :
    get final = get draft ∨
      ∃ v a, vs[front.length]? = some v ∧ Gives reader v a ∧ get final = some a := by
  -- The induction is on the slots in front, each of which takes an element.
  induction front generalizing vs draft with
  | nil =>
    cases places with
    | done => exact .inl rfl
    | next gives others =>
      obtain ⟨a, here, rfl⟩ := of_gives_slot exact gives
      exact .inr ⟨_, a, rfl, here, (others.spared field.spares).trans (field.stores draft a)⟩
  | cons slot front ih =>
    cases places with
    | done => exact .inl rfl
    | @next _ _ v vs _ filled _ gives others =>
      have spared := field.spares slot List.mem_cons_self draft v filled gives
      rcases ih field.tail others with kept | told
      · exact .inl (kept.trans spared)
      · exact .inr told

theorem tells_of_record {β : Type} {get : ρ → Option String} {set : ρ → String → ρ} {blank : ρ}
    {finish : ρ → Option β} {value : β} {text : Bytes}
    (exact : ∀ slot ∈ front ++ Slot.of name get set string :: back, ∀ draft,
      Exact (slot.fill draft))
    (field : Field front back name get set) (unset : get blank = none)
    (read : (record blank (front ++ Slot.of name get set string :: back) finish).run text =
      .ok value) :
    ∃ final, finish final = some value ∧
      ∀ s, get final = some s → Tells name front.length s text := by
  obtain ⟨c, taken, behind⟩ := ok_of_run read
  obtain ⟨b, t, final, blanks, finished, ⟨ms, listed, gathers, rfl⟩ | ⟨vs, listed, places, rfl⟩⟩ :=
    ok_of_record exact taken
  all_goals refine ⟨final, finished, fun s held => ?_⟩
  · rcases gathers.held field exact_string with ⟨-, kept⟩ | ⟨-, v, a, only, gives, found⟩
    · cases held.symm.trans (kept.trans unset)
    · obtain rfl := Option.some.inj (held.symm.trans found)
      exact .object blanks (listed.imp fun _ _ => isMember_of_member) only
        (gives_string_iff.mp gives) behind
  · rcases places.held field exact_string with kept | ⟨v, a, here, gives, found⟩
    · cases held.symm.trans (kept.trans unset)
    · obtain rfl := Option.some.inj (held.symm.trans found)
      exact .array blanks listed here (gives_string_iff.mp gives) behind

end Held

section Unique

variable {name : String} {place : Nat}

def skipSlot : Slot (Option String) where
  name := ""
  isFilled _ := false
  fill draft := do
    let _ ← peek
    skipValue
    return draft

def fieldSlot (name : String) : Slot (Option String) := .of name id (fun _ s => some s) string

def fieldSlots (name : String) (place more : Nat) : List (Slot (Option String)) :=
  List.replicate place skipSlot ++ fieldSlot name :: List.replicate more skipSlot

def fieldReader {β : Type} (name : String) (place more : Nat) (finish : Option String → Option β) :
    Reader β :=
  record none (fieldSlots name place more) finish

theorem Grammar.trimmed {v : Bytes} (value : IsValue v) :
    ∃ b c u, Blank b ∧ isBlank c = false ∧ IsValue (c :: u) ∧ v = b ++ c :: u := by
  cases value with
  | @scalar b t blank scalar =>
    obtain ⟨c, u, l, rfl, leads, -⟩ := run_skipScalar scalar .nil
    exact ⟨b, c, u, blank, visible_of_leadOf leads, .scalar .nil scalar, rfl⟩
  | @container inObject b t blank inside =>
    refine ⟨b, opening inObject, t, blank, ?_, .container .nil inside, rfl⟩
    cases inObject <;> rfl

theorem gives_skipSlot {v : Bytes} (value : IsValue v) (draft : Option String) :
    Gives (skipSlot.fill draft) v draft := by
  refine ⟨value, fun rest ended => ?_⟩
  obtain ⟨b, c, u, blank, visible, trimmed, rfl⟩ := value.trimmed
  rw [List.append_assoc]
  refine (run_bind_ok (run_peek_blank blank visible (u ++ rest))).trans ?_
  exact run_bind_ok (run_skipValue trimmed ended)

theorem gives_fieldSlot {v : Bytes} {s : String} (isString : IsString s v)
    (draft : Option String) : Gives ((fieldSlot name).fill draft) v (some s) :=
  VmLine.gives_slot isString.gives draft

theorem slot_cases {slot : Slot (Option String)} {more : Nat}
    (mem : slot ∈ fieldSlots name place more) : slot = skipSlot ∨ slot = fieldSlot name := by
  simp only [fieldSlots, List.mem_append, List.mem_cons, List.mem_replicate] at mem
  rcases mem with ⟨-, rfl⟩ | rfl | ⟨-, rfl⟩
  · exact .inl rfl
  · exact .inr rfl
  · exact .inl rfl

theorem trims_fieldSlots {slot : Slot (Option String)} {more : Nat}
    (mem : slot ∈ fieldSlots name place more) (draft : Option String) :
    Trims (slot.fill draft) := by
  rcases slot_cases mem with rfl | rfl
  · exact trims_peek.bind
  · exact exact_string.trims.bind

theorem found_fieldSlot (named : name ≠ "") {more : Nat} :
    (fieldSlots name place more).find? (·.name = name) = some (fieldSlot name) := by
  have none : (List.replicate place skipSlot).find? (·.name = name) = none := by
    simp only [List.find?_eq_none, List.mem_replicate, decide_eq_true_eq]
    rintro slot ⟨-, rfl⟩ same
    exact named same.symm
  rw [fieldSlots, List.find?_append, none, Option.none_or, List.find?_cons_of_pos]
  simp [fieldSlot, Slot.of]

theorem gathers_fieldSlots (named : name ≠ "") {more : Nat} {ms : List (String × Bytes)}
    (values : ∀ m ∈ ms, IsValue m.2) {draft final : Option String}
    (told : (ms.filter (·.1 = name) = [] ∧ draft = final) ∨
      (draft = none ∧ ∃ v s, ms.filter (·.1 = name) = [(name, v)] ∧ IsString s v ∧
        final = some s)) :
    Gathers (fieldSlots name place more) ms draft final := by
  induction ms generalizing draft with
  | nil =>
    rcases told with ⟨-, rfl⟩ | ⟨-, _, _, none, -⟩
    · exact .done draft
    · cases none
  | cons m ms ih =>
    obtain ⟨n, v⟩ := m
    obtain ⟨value, values⟩ := List.forall_mem_cons.mp values
    by_cases isName : n = name
    · subst isName
      rcases told with ⟨none, -⟩ | ⟨rfl, t, s, only, isString, rfl⟩
      · simp at none
      · obtain ⟨rfl, noMore⟩ : v = t ∧ ms.filter (·.1 = n) = [] := by simpa using only
        exact .field (found_fieldSlot named) rfl (gives_fieldSlot isString none)
          (ih values (.inl ⟨noMore, rfl⟩))
    · rw [List.filter_cons_of_neg (by simp [isName])] at told
      cases found : (fieldSlots name place more).find? (·.name = n) with
      | none => exact .other found (ih values told)
      | some slot =>
        rcases slot_cases (List.mem_of_find?_eq_some found) with rfl | rfl
        · exact .field found rfl (gives_skipSlot value draft) (ih values told)
        · have same : name = n := by simpa [fieldSlot, Slot.of] using List.find?_some found
          exact absurd same.symm isName

theorem places_skipSlots {vs : List Bytes} (values : ∀ v ∈ vs, IsValue v) {more : Nat}
    (short : vs.length ≤ more) (draft : Option String) :
    Places (List.replicate more skipSlot) vs draft draft := by
  induction vs generalizing more with
  | nil => exact .done _ draft
  | cons v vs ih =>
    obtain ⟨value, values⟩ := List.forall_mem_cons.mp values
    obtain ⟨more, rfl⟩ : ∃ n, more = n + 1 := ⟨more - 1, by simp at short; omega⟩
    exact .next (gives_skipSlot value draft) (ih values (by simpa using short))

theorem places_fieldSlots {vs : List Bytes} (values : ∀ v ∈ vs, IsValue v) {more : Nat}
    (short : vs.length ≤ place + 1 + more) {v : Bytes} (here : vs[place]? = some v) {s : String}
    (isString : IsString s v) : Places (fieldSlots name place more) vs none (some s) := by
  induction place generalizing vs with
  | zero =>
    cases vs with
    | nil => cases here
    | cons w vs =>
      obtain rfl := Option.some.inj here
      obtain ⟨-, values⟩ := List.forall_mem_cons.mp values
      exact .next (gives_fieldSlot isString none)
        (places_skipSlots values (by simp at short; omega) (some s))
  | succ place ih =>
    cases vs with
    | nil => cases here
    | cons w vs =>
      obtain ⟨value, values⟩ := List.forall_mem_cons.mp values
      exact .next (gives_skipSlot value none) (ih values (by simp at short; omega) here)

theorem Tells.reads {s : String} {text : Bytes} (named : name ≠ "")
    (tells : Tells name place s text) :
    ∃ least, (∀ most, AtMost most text → least ≤ most) ∧
      ∀ more, least ≤ place + 1 + more → ∀ {β : Type} (finish : Option String → Option β) {b : β},
        finish (some s) = some b → (fieldReader name place more finish).run text = .ok b := by
  cases tells with
  | @object b u c v ms blank listed only isString behind =>
    have listed := listed.imp fun _ _ => IsMember.member
    have values : ∀ m ∈ ms, IsValue m.2 := fun m mem =>
      (listed.element_of_mem m mem).elim fun _ member => member.1
    have gathers (more : Nat) : Gathers (fieldSlots name place more) ms none (some s) :=
      gathers_fieldSlots named values (.inr ⟨rfl, v, s, only, isString, rfl⟩)
    exact ⟨0, fun most _ => Nat.zero_le most, fun more _ _ _ _ finishes =>
      run_of_gives (gives_record_object blank listed (gathers more) finishes) behind⟩
  | @array b u c v vs blank listed here isString behind =>
    have values : ∀ v ∈ vs, IsValue v := fun v mem =>
      (listed.element_of_mem v mem).elim fun _ element => element.1
    refine ⟨vs.length, fun most short => short b u c vs blank listed behind rfl,
      fun more enough _ _ _ finishes => ?_⟩
    have places : Places (fieldSlots name place more) vs none (some s) :=
      places_fieldSlots values enough here isString
    have trims (slot : Slot (Option String)) (mem : slot ∈ fieldSlots name place more) :=
      trims_fieldSlots mem
    exact run_of_gives (gives_record_array trims blank listed places finishes) behind

theorem Tells.unique {s s' : String} {text : Bytes} (named : name ≠ "")
    (tells : Tells name place s text) (tells' : Tells name place s' text) : s = s' := by
  -- Both strings are what one reader reads, if it goes far enough for either.
  obtain ⟨least, -, reads⟩ := tells.reads named
  obtain ⟨least', -, reads'⟩ := tells'.reads named
  have read := reads (max least least') (by omega) id rfl
  have read' := reads' (max least least') (by omega) id rfl
  exact Except.ok.inj (read.symm.trans read')

end Unique

end LedgerBroker.Json
