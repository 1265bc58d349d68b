import LedgerBroker.Proofs.JsonSkipping

set_option autoImplicit false

namespace LedgerBroker.Json

open Reader

namespace Reader

variable {α β ρ : Type} {input rest : Bytes}

def Fails (reader : Reader α) : Prop := ∀ input a rest, StateT.run reader input ≠ .ok (a, rest)

theorem Fails.mismatch : Fails (mismatch : Reader α) := fun _ _ _ => nofun

theorem Fails.after {x : Reader α} {f : α → Reader β} (fails : ∀ a, Fails (f a)) :
    Fails (x >>= f) := by
  intro input b rest h
  obtain ⟨a, between, -, accepted⟩ := ok_of_run_bind h
  exact fails a between b rest accepted

theorem refuse_fails : Fails (refuse : Reader α) := by
  refine .after fun l => ?_
  cases l with
  | bool value => cases value <;> exact .after fun _ => .mismatch
  | number =>
    refine .after fun n => ?_
    split
    · exact .after fun _ => .mismatch
    · exact .mismatch
  | string => exact .after fun _ => .after fun _ => .mismatch
  | array => exact .mismatch
  | object => exact .mismatch
  | null => exact .after fun _ => .mismatch

end Reader

structure Quotes (t : Bytes) (s : String) : Prop where
  content : Content t
  read : ∀ rest, StateT.run stringBody (t ++ 0x22 :: rest) = .ok (s, rest)

structure Gives {α : Type} (reader : Reader α) (t : Bytes) (a : α) : Prop where
  value : IsValue t
  takes : Takes reader t a

structure Exact {α : Type} (reader : Reader α) : Prop where
  trims : Trims reader
  sound : ∀ {input rest a}, StateT.run reader input = .ok (a, rest) →
    ∃ t, Gives reader t a ∧ input = t ++ rest

namespace Reader

variable {α ρ : Type} {input rest : Bytes}

theorem ok_of_stringBody {s : String} (h : StateT.run stringBody input = .ok (s, rest)) :
    ∃ t, Quotes t s ∧ input = t ++ 0x22 :: rest := by
  obtain ⟨⟨ps, left⟩, read, joined⟩ := ok_of_bind h
  obtain ⟨t, content, rfl⟩ := ok_of_pieces read
  obtain ⟨ps', again⟩ := pieces_content content
  obtain ⟨rfl, -⟩ := Prod.mk.inj (Except.ok.inj (read.symm.trans (again left)))
  cases text : (join ps).bind Bytes.text? with
  | none =>
    simp only [text] at joined
    cases joined
  | some s' =>
    simp only [text] at joined
    obtain ⟨rfl, rfl⟩ := Prod.mk.inj (Except.ok.inj joined)
    refine ⟨t, ⟨content, fun more => ?_⟩, rfl⟩
    simp [stringBody, StateT.run, again, text, bind, Except.bind]

theorem gives_string {b t : Bytes} {s : String} (blank : Blank b) (quotes : Quotes t s) :
    Gives string (b ++ 0x22 :: (t ++ [0x22])) s := by
  refine ⟨.scalar blank (.string quotes.content), fun rest _ => ?_⟩
  simp only [List.append_assoc, List.cons_append, List.nil_append]
  rw [string, run_bind_ok (run_lead_blank blank rfl _)]
  exact (run_bind_ok (run_skip _ _)).trans (quotes.read rest)

theorem exact_string : Exact string where
  trims := trims_lead.bind
  sound {input rest s} h := by
    obtain ⟨l, between, led, read⟩ := ok_of_run_bind h
    obtain ⟨b, c, t, blank, rfl, leads, rfl⟩ := ok_of_lead led
    cases l with
    | string =>
      obtain rfl := (first_of_leadOf leads).1 rfl
      obtain ⟨u, quotes, rfl⟩ := ok_of_stringBody ((run_bind_ok (run_skip _ _)).symm.trans read)
      exact ⟨_, gives_string blank quotes, by simp⟩
    | _ => exact (refuse_fails _ _ _ read).elim

end Reader

inductive Listed {α : Type} (element : α → Bytes → Prop) (inObject : Bool) :
    Bool → List α → Bytes → Prop
  | close {first : Bool} {b : Bytes} (blank : Blank b) :
      Listed element inObject first [] (b ++ [closing inObject])
  | next {first : Bool} {s e t : Bytes} {x : α} {xs : List α} (separator : Separator first s)
      (head : element x e) (others : Listed element inObject false xs t) :
      Listed element inObject first (x :: xs) (s ++ (e ++ t))

namespace Listed

variable {α : Type} {element : α → Bytes → Prop} {inObject first : Bool} {xs : List α} {t : Bytes}

theorem grammar (fits : ∀ x e, element x e → ∃ l v, Label inObject l ∧ IsValue v ∧ e = l ++ v)
    (listed : Listed element inObject first xs t) : Grammar (.rest inObject first) t := by
  induction listed with
  | close blank => exact .close blank
  | next separator head _ ih =>
    obtain ⟨l, v, label, value, rfl⟩ := fits _ _ head
    rw [List.append_assoc]
    exact .next separator label value ih

theorem imp {other : α → Bytes → Prop} (implies : ∀ x e, element x e → other x e)
    (listed : Listed element inObject first xs t) : Listed other inObject first xs t := by
  induction listed with
  | close blank => exact .close blank
  | next separator head _ ih => exact .next separator (implies _ _ head) ih

theorem element_of_mem (listed : Listed element inObject first xs t) :
    ∀ x ∈ xs, ∃ e, element x e := by
  induction listed with
  | close blank => exact List.forall_mem_nil _
  | next separator head _ ih => exact List.forall_mem_cons.mpr ⟨⟨_, head⟩, ih⟩

theorem length_lt (nonempty : ∀ x e, element x e → e ≠ [])
    (listed : Listed element inObject first xs t) : xs.length < t.length := by
  induction listed with
  | close blank => simp
  | next separator head _ ih =>
    have := List.length_pos_iff.mpr (nonempty _ _ head)
    simp only [List.length_append, List.length_cons]
    omega

end Listed

namespace Reader

variable {α ρ : Type} {input rest : Bytes} {reader : Reader α} {first : Bool}

theorem ok_of_another {more : Bool} (h : StateT.run (another first) input = .ok (more, rest)) :
    (more = true ∧ ∃ s t, Separator first s ∧ input = s ++ t ∧ rest = t.dropWhile isBlank) ∨
      (more = false ∧ ∃ b t, Blank b ∧ rest = 0x5D :: t ∧ input = b ++ rest) := by
  obtain ⟨next, between, peeked, goesOn⟩ := ok_of_run_bind h
  obtain ⟨b, blank, split, seen⟩ := ok_of_peek peeked
  cases next with
  | none => cases goesOn
  | some c =>
    obtain ⟨t, rfl⟩ := List.head?_eq_some_iff.mp seen
    dsimp only at goesOn
    split at goesOn
    next close =>
      subst close
      obtain ⟨rfl, rfl⟩ := Prod.mk.inj (Except.ok.inj goesOn)
      exact .inr ⟨rfl, b, t, blank, rfl, split⟩
    next =>
      split at goesOn
      next isFirst =>
        subst isFirst
        obtain ⟨rfl, rfl⟩ := Prod.mk.inj (Except.ok.inj goesOn)
        exact .inl ⟨rfl, [], input, rfl, rfl, (Prod.mk.inj (Except.ok.inj peeked)).2.symm⟩
      next notFirst =>
        split at goesOn
        next comma =>
          subst comma split
          obtain rfl : first = false := Bool.eq_false_iff.mpr notFirst
          rw [run_bind_ok (run_skip _ _)] at goesOn
          obtain ⟨_, _, again, goesOn⟩ := ok_of_run_bind goesOn
          obtain ⟨rfl, rfl⟩ := Prod.mk.inj (Except.ok.inj again)
          split at goesOn
          next => cases goesOn
          next =>
            obtain ⟨rfl, rfl⟩ := Prod.mk.inj (Except.ok.inj goesOn)
            exact .inl ⟨rfl, b ++ [0x2C], t, ⟨b, blank, rfl⟩, by simp, rfl⟩
        next => cases goesOn

theorem run_another_close {b : Bytes} (blank : Blank b) :
    StateT.run (another first) (b ++ 0x5D :: rest) = .ok (false, 0x5D :: rest) :=
  run_bind_ok (run_peek_blank blank rfl rest)

theorem run_another_next {s b : Bytes} {c : UInt8} (separator : Separator first s) (blank : Blank b)
    (visible : isBlank c = false) (other : c ≠ 0x5D) :
    StateT.run (another first) (s ++ (b ++ c :: rest)) = .ok (true, c :: rest) := by
  cases first with
  | true =>
    obtain rfl := separator
    refine (run_bind_ok (run_peek_blank blank visible rest)).trans ?_
    dsimp only
    rw [if_neg other]
    rfl
  | false =>
    obtain ⟨b', blank', rfl⟩ := separator
    rw [List.append_assoc, List.singleton_append]
    refine (run_bind_ok (run_peek_blank blank' rfl _)).trans ?_
    refine (run_bind_ok (run_skip _ _)).trans ?_
    refine (run_bind_ok (run_peek_blank blank visible rest)).trans ?_
    rw [if_neg (by simpa using other)]
    rfl

theorem takes_behind (trims : Trims reader) {b u : Bytes} {c : UInt8} {x : α} (blank : Blank b)
    (visible : isBlank c = false) (gives : Gives reader (b ++ c :: u) x) (ended : Ended rest) :
    StateT.run reader (c :: (u ++ rest)) = .ok (x, rest) := by
  have taken := gives.takes rest ended
  rwa [← trims, List.append_assoc, List.dropWhile_append_of_pos blank, List.cons_append,
    List.dropWhile_cons_of_neg (by simp [visible])] at taken

theorem run_another_gives (trims : Trims reader) {s e : Bytes} {x : α}
    (separator : Separator first s) (gives : Gives reader e x) {rest : Bytes} (ended : Ended rest) :
    ∃ input, StateT.run (another first) (s ++ (e ++ rest)) = .ok (true, input) ∧
      StateT.run reader input = .ok (x, rest) := by
  obtain ⟨b, c, u, l, blank, leads, rfl⟩ := gives.value.lead
  have visible := visible_of_leadOf leads
  -- No value begins with the bracket that closes an array.
  have other : c ≠ 0x5D := by
    rintro rfl
    cases leads
  have taken := takes_behind trims blank visible gives ended
  rw [List.append_assoc]
  exact ⟨_, run_another_next separator blank visible other, taken⟩

theorem ok_of_items (exact : Exact reader) {turns : Nat} {xs : List α}
    (h : StateT.run (items reader turns first) input = .ok (xs, rest)) :
    ∃ u t, Listed (fun x e => Gives reader e x) false first xs (u ++ [0x5D]) ∧
      rest = 0x5D :: t ∧ input = u ++ rest := by
  induction turns generalizing first input xs with
  | zero => cases h
  | succ turns ih =>
    obtain ⟨more, between, announced, goesOn⟩ := ok_of_run_bind h
    rcases ok_of_another announced with
      ⟨rfl, s, t, separator, rfl, rfl⟩ | ⟨rfl, b, t, blank, rfl, rfl⟩
    · obtain ⟨x, afterHead, read, afterRead⟩ := ok_of_run_bind goesOn
      obtain ⟨e, gives, rfl⟩ := exact.sound ((exact.trims t).symm.trans read)
      obtain ⟨others, _, readOthers, done⟩ := ok_of_run_bind afterRead
      obtain ⟨rfl, rfl⟩ := Prod.mk.inj (Except.ok.inj done)
      obtain ⟨u, t, listed, rfl, rfl⟩ := ih readOthers
      exact ⟨s ++ (e ++ u), t, by simpa using Listed.next separator gives listed, rfl, by simp⟩
    · obtain ⟨rfl, rfl⟩ := Prod.mk.inj (Except.ok.inj goesOn)
      exact ⟨b, t, .close blank, rfl, rfl⟩

theorem fits_gives {x : α} {e : Bytes} (gives : Gives reader e x) :
    ∃ l v, Label false l ∧ IsValue v ∧ e = l ++ v :=
  ⟨[], e, (rfl : Label false []), gives.value, rfl⟩

theorem run_items (trims : Trims reader) {xs : List α} {t : Bytes}
    (listed : Listed (fun x e => Gives reader e x) false first xs t) :
    ∀ turns, xs.length < turns → ∀ rest,
      StateT.run (items reader turns first) (t ++ rest) = .ok (xs, 0x5D :: rest) := by
  -- The induction is on the elements; each uses up a turn.
  induction listed with
  | @close first b blank =>
    intro turns enough rest
    obtain ⟨turns, rfl⟩ : ∃ n, turns = n + 1 := ⟨turns - 1, by omega⟩
    rw [List.append_assoc]
    exact run_bind_ok (run_another_close blank)
  | @next first s e t x xs separator gives others ih =>
    intro turns enough rest
    obtain ⟨turns, rfl⟩ : ∃ n, turns = n + 1 := ⟨turns - 1, by omega⟩
    have ended := (others.grammar fun _ _ => fits_gives).ended rest
    obtain ⟨input, announced, read⟩ := run_another_gives trims separator gives ended
    simp only [List.append_assoc]
    rw [items, run_bind_ok announced, if_pos rfl, run_bind_ok read,
      run_bind_ok (ih turns (by simpa using enough) rest)]
    rfl

theorem gives_nonempty {t : Bytes} {x : α} (gives : Gives reader t x) : t ≠ [] := by
  obtain ⟨b, c, u, _, _, _, rfl⟩ := gives.value.lead
  simp

theorem gives_list (trims : Trims reader) {b t : Bytes} {xs : List α} (blank : Blank b)
    (listed : Listed (fun x e => Gives reader e x) false true xs t) :
    Gives (list reader) (b ++ 0x5B :: t) xs := by
  have inside := listed.grammar fun _ _ => fits_gives
  refine ⟨.container blank inside, fun rest _ => ?_⟩
  have short := listed.length_lt fun x e => gives_nonempty
  have read := run_items trims listed ((t ++ rest).length + 1) (by simp; omega) rest
  rw [List.append_assoc, List.cons_append, list, run_bind_ok (run_lead_blank blank rfl _)]
  refine (run_bind_ok (run_skip _ _)).trans ((run_bind_ok rfl).trans ((run_bind_ok read).trans ?_))
  exact run_bind_ok (run_expect rfl rest)

theorem exact_list (exact : Exact reader) : Exact (list reader) where
  trims := trims_lead.bind
  sound {input rest xs} h := by
    obtain ⟨l, between, led, read⟩ := ok_of_run_bind h
    obtain ⟨b, c, t, blank, rfl, leads, rfl⟩ := ok_of_lead led
    cases l with
    | array =>
      obtain rfl := (first_of_leadOf leads).2.1 rfl
      have inside : StateT.run (do
          let values ← items reader (t.length + 1) true
          expect 0x5D
          return values) t = .ok (xs, rest) := read
      obtain ⟨values, _, readItems, close⟩ := ok_of_run_bind inside
      obtain ⟨u, t, listed, rfl, rfl⟩ := ok_of_items exact readItems
      have done := (run_bind_ok (run_expect rfl t)).symm.trans close
      obtain ⟨rfl, rfl⟩ := Prod.mk.inj (Except.ok.inj done)
      exact ⟨_, gives_list exact.trims blank listed, by simp⟩
    | _ => exact (refuse_fails _ _ _ read).elim

end Reader

def Named (name : String) (l : Bytes) : Prop :=
  ∃ b n c, Blank b ∧ Quotes n name ∧ Blank c ∧ l = b ++ 0x22 :: (n ++ 0x22 :: (c ++ [0x3A]))

def Member (m : String × Bytes) (e : Bytes) : Prop :=
  IsValue m.2 ∧ ∃ l, Named m.1 l ∧ e = l ++ m.2

theorem Member.fits {m : String × Bytes} {e : Bytes} (member : Member m e) :
    ∃ l v, Label true l ∧ IsValue v ∧ e = l ++ v := by
  obtain ⟨value, _, ⟨b, n, c, blank, quotes, blank', rfl⟩, rfl⟩ := member
  exact ⟨_, _, ⟨b, n, c, blank, quotes.content, blank', rfl⟩, value, rfl⟩

/-- The members take one draft of a record to the other. A slot takes the values of its name, once;
names without a slot are passed over. -/
inductive Gathers {ρ : Type} (slots : List (Slot ρ)) : List (String × Bytes) → ρ → ρ → Prop
  | done (draft : ρ) : Gathers slots [] draft draft
  | field {name : String} {v : Bytes} {ms : List (String × Bytes)} {slot : Slot ρ}
      {draft filled final : ρ} (found : slots.find? (·.name = name) = some slot)
      (free : slot.isFilled draft = false) (gives : Gives (slot.fill draft) v filled)
      (others : Gathers slots ms filled final) : Gathers slots ((name, v) :: ms) draft final
  | other {name : String} {v : Bytes} {ms : List (String × Bytes)} {draft final : ρ}
      (missing : slots.find? (·.name = name) = none) (others : Gathers slots ms draft final) :
      Gathers slots ((name, v) :: ms) draft final

namespace Reader

variable {α ρ : Type} {input rest : Bytes} {first : Bool} {slots : List (Slot ρ)} {draft final : ρ}
  {vs : List Bytes}

def name : Reader (Option String) := do
  expect 0x22
  return some (← stringBody)

theorem run_name_iff {next : Option String} : StateT.run name input = .ok (next, rest) ↔
    ∃ s b n, next = some s ∧ Blank b ∧ Quotes n s ∧ input = b ++ 0x22 :: (n ++ 0x22 :: rest) := by
  constructor
  · intro h
    obtain ⟨_, _, quote, read⟩ := ok_of_run_bind h
    obtain ⟨s, _, body, done⟩ := ok_of_run_bind read
    obtain ⟨b, blank, rfl⟩ := (run_expect_iff rfl).mp quote
    obtain ⟨n, quotes, rfl⟩ := ok_of_stringBody body
    obtain ⟨rfl, rfl⟩ := Prod.mk.inj (Except.ok.inj done)
    exact ⟨s, b, n, rfl, blank, quotes, rfl⟩
  · rintro ⟨s, b, n, rfl, blank, quotes, rfl⟩
    rw [name, run_bind_ok ((run_expect_iff rfl).mpr ⟨b, blank, rfl⟩),
      run_bind_ok (quotes.read rest)]
    rfl

theorem ok_of_nextName {next : Option String}
    (h : StateT.run (nextName first) input = .ok (next, rest)) :
    (next = none ∧ ∃ b t, Blank b ∧ rest = 0x7D :: t ∧ input = b ++ rest) ∨
      ∃ s t, Separator first s ∧ StateT.run name t = .ok (next, rest) ∧ input = s ++ t := by
  obtain ⟨found, between, peeked, goesOn⟩ := ok_of_run_bind h
  obtain ⟨b, blank, split, seen⟩ := ok_of_peek peeked
  cases found with
  | none => cases goesOn
  | some c =>
    obtain ⟨t, rfl⟩ := List.head?_eq_some_iff.mp seen
    dsimp only at goesOn
    split at goesOn
    next close =>
      subst close
      obtain ⟨rfl, rfl⟩ := Prod.mk.inj (Except.ok.inj goesOn)
      exact .inl ⟨rfl, b, t, blank, rfl, split⟩
    next =>
      refine .inr ?_
      cases first with
      | true =>
        -- The blanks that were looked past are those before the name.
        obtain ⟨s, b', n, named, blank', quotes, read⟩ := run_name_iff.mp goesOn
        refine ⟨[], input, rfl, ?_, rfl⟩
        exact run_name_iff.mpr
          ⟨s, b ++ b', n, named, blank.append blank', quotes, by simp [split, read]⟩
      | false =>
        rw [Bool.not_false, if_pos rfl] at goesOn
        split at goesOn
        next comma =>
          subst comma
          have named := (run_bind_ok (run_skip _ _)).symm.trans goesOn
          exact ⟨b ++ [0x2C], t, ⟨b, blank, rfl⟩, named, by simp [split]⟩
        next => cases goesOn

theorem run_nextName_close {b : Bytes} (blank : Blank b) :
    StateT.run (nextName first) (b ++ 0x7D :: rest) = .ok (none, 0x7D :: rest) :=
  run_bind_ok (run_peek_blank blank rfl rest)

theorem run_nextName_named {s l : Bytes} {n : String} (separator : Separator first s)
    (named : Named n l) :
    ∃ c, Blank c ∧ ∀ rest, StateT.run (nextName first) (s ++ (l ++ rest)) =
      .ok (some n, c ++ 0x3A :: rest) := by
  obtain ⟨b, t, c, blank, quotes, blank', rfl⟩ := named
  refine ⟨c, blank', fun rest => ?_⟩
  simp only [List.append_assoc, List.cons_append, List.nil_append]
  cases first with
  | true =>
    obtain rfl := separator
    refine (run_bind_ok (run_peek_blank blank rfl _)).trans ?_
    exact run_name_iff.mpr ⟨n, [], t, rfl, .nil, quotes, rfl⟩
  | false =>
    obtain ⟨b', blank', rfl⟩ := separator
    rw [List.append_assoc]
    refine (run_bind_ok (run_peek_blank blank' rfl _)).trans ?_
    refine (run_bind_ok (run_skip _ _)).trans ?_
    exact run_name_iff.mpr ⟨n, b, t, rfl, blank, quotes, rfl⟩

theorem ok_of_fields (exact : ∀ slot ∈ slots, ∀ draft, Exact (slot.fill draft)) {turns : Nat}
    (h : StateT.run (fields slots turns first draft) input = .ok (final, rest)) :
    ∃ ms u t, Listed Member true first ms (u ++ [0x7D]) ∧ Gathers slots ms draft final ∧
      rest = 0x7D :: t ∧ input = u ++ rest := by
  induction turns generalizing first input draft with
  | zero => cases h
  | succ turns ih =>
    obtain ⟨next, between, announced, goesOn⟩ := ok_of_run_bind h
    rcases ok_of_nextName announced with
      ⟨rfl, b, t, blank, rfl, rfl⟩ | ⟨s, t, separator, named, rfl⟩
    · obtain ⟨rfl, rfl⟩ := Prod.mk.inj (Except.ok.inj goesOn)
      exact ⟨[], b, t, .close blank, .done draft, rfl, rfl⟩
    · obtain ⟨n, b, q, rfl, blank, quotes, rfl⟩ := run_name_iff.mp named
      dsimp only at goesOn
      -- Whether a slot takes the value or none does, the text is that of one more member.
      have listed {c v others : Bytes} {ms : List (String × Bytes)} (blank' : Blank c)
          (value : IsValue v) (listed : Listed Member true false ms (others ++ [0x7D])) :
          Listed Member true first ((n, v) :: ms)
            (s ++ (b ++ 0x22 :: (q ++ 0x22 :: (c ++ 0x3A :: (v ++ others)))) ++ [0x7D]) := by
        have member : Member (n, v) (b ++ 0x22 :: (q ++ 0x22 :: (c ++ [0x3A])) ++ v) :=
          ⟨value, _, ⟨b, q, c, blank, quotes, blank', rfl⟩, rfl⟩
        simpa using Listed.next separator member listed
      cases found : slots.find? (·.name = n) with
      | none =>
        simp only [found] at goesOn
        obtain ⟨_, _, colon, afterColon⟩ := ok_of_run_bind goesOn
        obtain ⟨_, _, skipped, others⟩ := ok_of_run_bind afterColon
        obtain ⟨c, blank', rfl⟩ := (run_expect_iff rfl).mp colon
        obtain ⟨v, value, rfl⟩ := ok_of_skipValue skipped
        obtain ⟨ms, u, t, behind, gathers, rfl, rfl⟩ := ih others
        exact ⟨(n, v) :: ms, _, t, listed blank' value behind, .other found gathers, rfl, by simp⟩
      | some slot =>
        simp only [found] at goesOn
        split at goesOn
        next => cases goesOn
        next free =>
          obtain ⟨_, _, colon, afterColon⟩ := ok_of_run_bind goesOn
          obtain ⟨filled, _, read, others⟩ := ok_of_run_bind afterColon
          obtain ⟨c, blank', rfl⟩ := (run_expect_iff rfl).mp colon
          obtain ⟨v, gives, rfl⟩ := (exact slot (List.mem_of_find?_eq_some found) draft).sound read
          obtain ⟨ms, u, t, behind, gathers, rfl, rfl⟩ := ih others
          have free : slot.isFilled draft = false := Bool.eq_false_iff.mpr free
          exact ⟨(n, v) :: ms, _, t, listed blank' gives.value behind,
            .field found free gives gathers, rfl, by simp⟩

theorem run_fields_listed {ms : List (String × Bytes)} (gathers : Gathers slots ms draft final) :
    ∀ first t, Listed Member true first ms t → ∀ turns, ms.length < turns → ∀ rest,
      StateT.run (fields slots turns first draft) (t ++ rest) = .ok (final, 0x7D :: rest) := by
  induction gathers with
  | done draft =>
    intro first t listed turns enough rest
    obtain ⟨turns, rfl⟩ : ∃ n, turns = n + 1 := ⟨turns - 1, by omega⟩
    cases listed with
    | close blank =>
      rw [List.append_assoc]
      exact run_bind_ok (run_nextName_close blank)
  | @field n v ms slot draft filled final found free gives _ ih =>
    intro first t listed turns enough rest
    obtain ⟨turns, rfl⟩ : ∃ n, turns = n + 1 := ⟨turns - 1, by omega⟩
    cases listed with
    | @next _ s e t _ _ separator member others =>
      obtain ⟨-, l, named, rfl⟩ := member
      obtain ⟨c, blank, announced⟩ := run_nextName_named separator named
      have ended := (others.grammar fun _ _ => Member.fits).ended rest
      simp only [List.append_assoc]
      rw [fields, run_bind_ok (announced _)]
      simp only [found, free]
      refine (run_bind_ok ((run_expect_iff rfl).mpr ⟨c, blank, rfl⟩)).trans ?_
      rw [run_bind_ok (gives.takes _ ended)]
      exact ih false t others turns (by simpa using enough) rest
  | @other n v ms draft final missing _ ih =>
    intro first t listed turns enough rest
    obtain ⟨turns, rfl⟩ : ∃ n, turns = n + 1 := ⟨turns - 1, by omega⟩
    cases listed with
    | @next _ s e t _ _ separator member others =>
      obtain ⟨value, l, named, rfl⟩ := member
      obtain ⟨c, blank, announced⟩ := run_nextName_named separator named
      have ended := (others.grammar fun _ _ => Member.fits).ended rest
      simp only [List.append_assoc]
      rw [fields, run_bind_ok (announced _)]
      simp only [missing]
      refine (run_bind_ok ((run_expect_iff rfl).mpr ⟨c, blank, rfl⟩)).trans ?_
      rw [run_bind_ok (run_skipValue value ended)]
      exact ih false t others turns (by simpa using enough) rest

theorem member_nonempty {m : String × Bytes} {e : Bytes} (member : Member m e) : e ≠ [] := by
  obtain ⟨-, _, ⟨b, n, c, -, -, -, rfl⟩, rfl⟩ := member
  simp

theorem gives_record_object {blank : ρ} {finish : ρ → Option α} {value : α} {b t : Bytes}
    {ms : List (String × Bytes)} (blanks : Blank b) (listed : Listed Member true true ms t)
    (gathers : Gathers slots ms blank final) (finished : finish final = some value) :
    Gives (record blank slots finish) (b ++ 0x7B :: t) value := by
  refine ⟨.container blanks (listed.grammar fun _ _ => Member.fits), fun rest _ => ?_⟩
  have short := listed.length_lt fun _ _ => member_nonempty
  have read := run_fields_listed gathers true t listed ((t ++ rest).length + 1)
    (by simp; omega) rest
  rw [List.append_assoc, List.cons_append, record, run_bind_ok (run_lead_blank blanks rfl _)]
  refine (run_bind_ok (run_skip _ _)).trans ((run_bind_ok rfl).trans ((run_bind_ok read).trans ?_))
  rw [finished]
  exact run_bind_ok (run_expect rfl rest)

inductive Places {ρ : Type} : List (Slot ρ) → List Bytes → ρ → ρ → Prop
  | done (slots : List (Slot ρ)) (draft : ρ) : Places slots [] draft draft
  | next {slot : Slot ρ} {slots : List (Slot ρ)} {v : Bytes} {vs : List Bytes}
      {draft filled final : ρ} (gives : Gives (slot.fill draft) v filled)
      (others : Places slots vs filled final) : Places (slot :: slots) (v :: vs) draft final

def Element (v e : Bytes) : Prop := IsValue v ∧ e = v

theorem Element.fits {v e : Bytes} (element : Element v e) :
    ∃ l v, Label false l ∧ IsValue v ∧ e = l ++ v :=
  ⟨[], v, (rfl : Label false []), element.1, element.2⟩

theorem ok_of_positions (exact : ∀ slot ∈ slots, ∀ draft, Exact (slot.fill draft)) {b : Bytes}
    (blank : Blank b)
    (h : StateT.run (positions slots first draft) input = .ok (final, b ++ 0x5D :: rest)) :
    ∃ vs u, Listed Element false first vs (u ++ [0x5D]) ∧ Places slots vs draft final ∧
      input = u ++ 0x5D :: rest := by
  induction slots generalizing first input draft with
  | nil =>
    obtain ⟨rfl, rfl⟩ := Prod.mk.inj (Except.ok.inj h)
    exact ⟨[], b, .close blank, .done _ _, rfl⟩
  | cons slot slots ih =>
    obtain ⟨more, between, announced, goesOn⟩ := ok_of_run_bind h
    rcases ok_of_another announced with
      ⟨rfl, s, t, separator, rfl, rfl⟩ | ⟨rfl, c, t, blank', close, rfl⟩
    · obtain ⟨filled, afterHead, read, others⟩ := ok_of_run_bind goesOn
      have slotExact := exact slot List.mem_cons_self draft
      obtain ⟨v, gives, rfl⟩ := slotExact.sound ((slotExact.trims t).symm.trans read)
      obtain ⟨vs, u, listed, places, rfl⟩ :=
        ih (fun slot mem => exact slot (List.mem_cons_of_mem _ mem)) others
      have element : Element v v := ⟨gives.value, rfl⟩
      exact ⟨v :: vs, s ++ (v ++ u), by simpa using Listed.next separator element listed,
        .next gives places, by simp⟩
    · obtain ⟨rfl, same⟩ := Prod.mk.inj (Except.ok.inj goesOn)
      rw [same] at close
      cases b with
      | nil =>
        obtain ⟨-, rfl⟩ := List.cons.inj close
        exact ⟨[], c, .close blank', .done _ _, by rw [same]; rfl⟩
      | cons x b =>
        obtain ⟨rfl, -⟩ := List.cons.inj close
        cases blank _ List.mem_cons_self

theorem run_positions (places : Places slots vs draft final)
    (trims : ∀ slot ∈ slots, ∀ draft, Trims (slot.fill draft)) :
    ∀ first t, Listed Element false first vs t → ∀ rest, ∃ b, Blank b ∧
      StateT.run (positions slots first draft) (t ++ rest) = .ok (final, b ++ 0x5D :: rest) := by
  induction places with
  | done slots draft =>
    intro first t listed rest
    cases listed with
    | @close _ b blank =>
      cases slots with
      | nil => exact ⟨b, blank, by simp; rfl⟩
      | cons slot slots =>
        rw [List.append_assoc]
        exact ⟨[], .nil, run_bind_ok (run_another_close blank)⟩
  | @next slot slots v vs draft filled final gives _ ih =>
    intro first t listed rest
    cases listed with
    | @next _ s e t _ _ separator element others =>
      obtain ⟨-, rfl⟩ := element
      have slotTrims := trims slot List.mem_cons_self draft
      have ended := (others.grammar fun _ _ => Element.fits).ended rest
      obtain ⟨input, announced, read⟩ := run_another_gives slotTrims separator gives ended
      obtain ⟨b, blank, run⟩ :=
        ih (fun slot mem => trims slot (List.mem_cons_of_mem _ mem)) false t others rest
      refine ⟨b, blank, ?_⟩
      simp only [List.append_assoc]
      rw [positions, run_bind_ok announced, if_pos rfl, run_bind_ok read, run]

theorem gives_record_array {blank : ρ} {finish : ρ → Option α} {value : α} {b t : Bytes}
    (trims : ∀ slot ∈ slots, ∀ draft, Trims (slot.fill draft)) (blanks : Blank b)
    (listed : Listed Element false true vs t) (places : Places slots vs blank final)
    (finished : finish final = some value) :
    Gives (record blank slots finish) (b ++ 0x5B :: t) value := by
  refine ⟨.container blanks (listed.grammar fun _ _ => Element.fits), fun rest _ => ?_⟩
  obtain ⟨b', blanks', read⟩ := run_positions places trims true t listed rest
  rw [List.append_assoc, List.cons_append, record, run_bind_ok (run_lead_blank blanks rfl _)]
  refine (run_bind_ok (run_skip _ _)).trans ((run_bind_ok read).trans ?_)
  rw [finished]
  exact run_bind_ok ((run_expect_iff rfl).mpr ⟨b', blanks', rfl⟩)

theorem ok_of_record {blank : ρ} {finish : ρ → Option α} {value : α}
    (exact : ∀ slot ∈ slots, ∀ draft, Exact (slot.fill draft))
    (h : StateT.run (record blank slots finish) input = .ok (value, rest)) :
    ∃ b t final, Blank b ∧ finish final = some value ∧
      ((∃ ms, Listed Member true true ms t ∧ Gathers slots ms blank final ∧
          input = b ++ 0x7B :: t ++ rest) ∨
        ∃ vs, Listed Element false true vs t ∧ Places slots vs blank final ∧
          input = b ++ 0x5B :: t ++ rest) := by
  obtain ⟨l, between, led, read⟩ := ok_of_run_bind h
  obtain ⟨b, c, t, blanks, rfl, leads, rfl⟩ := ok_of_lead led
  cases l with
  | object =>
    obtain rfl := (first_of_leadOf leads).2.2 rfl
    have got : StateT.run get t = (.ok (t, t) : Except Fault (Bytes × Bytes)) := rfl
    rw [run_bind_ok (run_skip _ t), run_bind_ok got] at read
    obtain ⟨final, _, readFields, close⟩ := ok_of_run_bind read
    obtain ⟨ms, u, t, listed, gathers, rfl, rfl⟩ := ok_of_fields exact readFields
    cases finished : finish final with
    | none =>
      rw [finished] at close
      cases close
    | some v =>
      simp only [finished] at close
      rw [run_bind_ok (run_expect rfl t)] at close
      obtain ⟨rfl, rfl⟩ := Prod.mk.inj (Except.ok.inj close)
      exact ⟨b, _, final, blanks, finished, .inl ⟨ms, listed, gathers, by simp⟩⟩
  | array =>
    obtain rfl := (first_of_leadOf leads).2.1 rfl
    rw [run_bind_ok (run_skip _ t)] at read
    obtain ⟨final, _, readPositions, close⟩ := ok_of_run_bind read
    cases finished : finish final with
    | none =>
      rw [finished] at close
      cases close
    | some v =>
      simp only [finished] at close
      obtain ⟨_, _, bracket, done⟩ := ok_of_run_bind close
      obtain ⟨rfl, rfl⟩ := Prod.mk.inj (Except.ok.inj done)
      obtain ⟨b', blanks', rfl⟩ := (run_expect_iff rfl).mp bracket
      obtain ⟨vs, u, listed, places, rfl⟩ := ok_of_positions exact blanks' readPositions
      exact ⟨b, _, final, blanks, finished, .inr ⟨vs, listed, places, by simp⟩⟩
  | _ => exact (refuse_fails _ _ _ read).elim

theorem exact_record {blank : ρ} {finish : ρ → Option α}
    (exact : ∀ slot ∈ slots, ∀ draft, Exact (slot.fill draft)) :
    Exact (record blank slots finish) where
  trims := trims_lead.bind
  sound {input rest value} h := by
    obtain ⟨b, t, final, blanks, finished, ⟨ms, listed, gathers, rfl⟩ | ⟨vs, listed, places, rfl⟩⟩ :=
      ok_of_record exact h
    · exact ⟨_, gives_record_object blanks listed gathers finished, rfl⟩
    · have trims (slot : Slot ρ) (mem : slot ∈ slots) (draft : ρ) := (exact slot mem draft).trims
      exact ⟨_, gives_record_array trims blanks listed places finished, rfl⟩

theorem exact_slot {reader : Reader α} (exact : Exact reader) {name : String} {get : ρ → Option α}
    {set : ρ → α → ρ} (draft : ρ) : Exact ((Slot.of name get set reader).fill draft) where
  trims := exact.trims.bind
  sound {input rest filled} h := by
    obtain ⟨a, _, read, done⟩ := ok_of_run_bind h
    obtain ⟨rfl, rfl⟩ := Prod.mk.inj (Except.ok.inj done)
    obtain ⟨t, gives, rfl⟩ := exact.sound read
    exact ⟨t, ⟨gives.value, gives.takes.slot draft⟩, rfl⟩

theorem ok_of_run {reader : Reader α} {a : α} (h : reader.run input = .ok a) :
    ∃ rest, StateT.run reader input = .ok (a, rest) ∧ Blank rest := by
  unfold Reader.run at h
  split at h
  next => cases h
  next value rest taken =>
    split at h
    next blank =>
      obtain rfl := Except.ok.inj h
      exact ⟨rest, taken, List.all_eq_true.mp blank⟩
    next => cases h

theorem run_of_gives {reader : Reader α} {t b : Bytes} {a : α} (gives : Gives reader t a)
    (blank : Blank b) : reader.run (t ++ b) = .ok a := by
  rw [Reader.run, gives.takes b blank.ended]
  exact if_pos (List.all_eq_true.mpr blank)

end Reader

namespace Exact

variable {α : Type} {reader : Reader α} {text : Bytes} {a : α}

theorem run_iff (exact : Exact reader) :
    reader.run text = .ok a ↔ ∃ t b, Gives reader t a ∧ Blank b ∧ text = t ++ b := by
  constructor
  · intro h
    obtain ⟨rest, taken, blank⟩ := ok_of_run h
    obtain ⟨t, gives, rfl⟩ := exact.sound taken
    exact ⟨t, rest, gives, blank, rfl⟩
  · rintro ⟨t, b, gives, blank, rfl⟩
    exact run_of_gives gives blank

theorem isJson (exact : Exact reader) (read : reader.run text = .ok a) : IsJson text := by
  obtain ⟨t, b, gives, blank, rfl⟩ := exact.run_iff.mp read
  exact ⟨t, b, gives.value, blank, rfl⟩

end Exact

theorem EndsVisible.split {text t b : Bytes} {c : UInt8} (ends : EndsVisible t) (blanks : Blank b)
    (blank : isBlank c = true) (split : text ++ [c] = t ++ b) :
    ∃ b', Blank b' ∧ text = t ++ b' := by
  rcases List.eq_nil_or_concat b with rfl | ⟨b', d, rfl⟩
  · obtain ⟨u, d, rfl, visible⟩ := ends
    rw [List.append_nil] at split
    obtain ⟨-, same⟩ := List.append_inj' split rfl
    obtain ⟨rfl, -⟩ := List.cons.inj same
    cases blank.symm.trans visible
  · rw [List.concat_eq_append, ← List.append_assoc] at split
    refine ⟨b', fun x mem => blanks x ?_, (List.append_inj' split rfl).1⟩
    rw [List.concat_eq_append]
    exact List.mem_append_left _ mem

theorem blank_singleton {c : UInt8} (blank : isBlank c = true) : Blank [c] :=
  fun _ mem => List.mem_singleton.mp mem ▸ blank

theorem Exact.run_blank {α : Type} {reader : Reader α} (exact : Exact reader) {c : UInt8}
    (blank : isBlank c = true) (text : Bytes) {a : α} :
    reader.run (text ++ [c]) = .ok a ↔ reader.run text = .ok a := by
  rw [exact.run_iff, exact.run_iff]
  constructor
  · rintro ⟨t, b, gives, blanks, split⟩
    obtain ⟨b', blanks', rfl⟩ := gives.value.ends.split blanks blank split
    exact ⟨t, b', gives, blanks', rfl⟩
  · rintro ⟨t, b, gives, blanks, rfl⟩
    exact ⟨t, b ++ [c], gives, blanks.append (blank_singleton blank), List.append_assoc ..⟩

inductive Spells : Bytes → List Char → Prop
  | done : Spells [] []
  | plain {c : Char} {t : Bytes} {cs : List Char} (visible : ' ' ≤ c) (notQuote : c ≠ '"')
      (notBackslash : c ≠ '\\') (others : Spells t cs) :
      Spells (String.utf8EncodeChar c ++ t) (c :: cs)
  | escape {e : UInt8} {c : Char} {t : Bytes} {cs : List Char}
      (known : (e, c) ∈ [(0x22, '"'), (0x5C, '\\'), (0x2F, '/'), (0x62, '\x08'), (0x66, '\x0C'),
        (0x6E, '\n'), (0x72, '\r'), (0x74, '\t')]) (others : Spells t cs) :
      Spells (0x5C :: e :: t) (c :: cs)
  | unit {a b c d : UInt8} {u : Nat} {t : Bytes} {cs : List Char}
      (digits : hexUnit? a b c d = some u) (whole : u < 0xD800 ∨ 0xE000 ≤ u)
      (others : Spells t cs) : Spells (0x5C :: 0x75 :: a :: b :: c :: d :: t) (Char.ofNat u :: cs)
  | pair {a b c d a' b' c' d' : UInt8} {u v : Nat} {t : Bytes} {cs : List Char}
      (high : hexUnit? a b c d = some u) (isHigh : 0xD800 ≤ u ∧ u < 0xDC00)
      (low : hexUnit? a' b' c' d' = some v) (isLow : 0xDC00 ≤ v ∧ v < 0xE000)
      (others : Spells t cs) :
      Spells (0x5C :: 0x75 :: a :: b :: c :: d :: 0x5C :: 0x75 :: a' :: b' :: c' :: d' :: t)
        (Char.ofNat (0x10000 + (u - 0xD800) * 0x400 + (v - 0xDC00)) :: cs)

theorem join_bytes (bs : Bytes) (ps : List Piece) :
    join (bs.map Piece.byte ++ ps) = (join ps).map (bs ++ ·) := by
  induction bs with
  | nil => simp
  | cons b bs ih =>
    rw [List.map_cons, List.cons_append, join, ih, Option.map_map]
    rfl

theorem pieces_bytes {bs : Bytes} (plain : ∀ b ∈ bs, 0x20 ≤ b ∧ b ≠ 0x22 ∧ b ≠ 0x5C) {t : Bytes}
    {ps : List Piece} (read : ∀ rest, Reader.pieces (t ++ 0x22 :: rest) = .ok (ps, rest))
    (rest : Bytes) :
    Reader.pieces (bs ++ (t ++ 0x22 :: rest)) = .ok (bs.map Piece.byte ++ ps, rest) := by
  induction bs with
  | nil => exact read rest
  | cons b bs ih =>
    obtain ⟨visible, notQuote, notBackslash⟩ := plain b List.mem_cons_self
    rw [List.cons_append, pieces_plain visible notQuote notBackslash,
      ih fun x mem => plain x (List.mem_cons_of_mem _ mem)]
    rfl

theorem bytes_plain {c : Char} (visible : ' ' ≤ c) (notQuote : c ≠ '"') (notBackslash : c ≠ '\\') :
    ∀ b ∈ String.utf8EncodeChar c, 0x20 ≤ b ∧ b ≠ 0x22 ∧ b ≠ 0x5C := by
  intro b mem
  by_cases small : c.toNat < 0x80
  · have value : (UInt8.ofNat c.toNat).toNat = c.toNat :=
      UInt8.toNat_ofNat_of_lt' (Nat.lt_trans small (by decide))
    have other {d : Char} (ne : c ≠ d) : (UInt8.ofNat c.toNat).toNat ≠ d.toNat :=
      fun same => ne (Char.toNat_inj.mp (value.symm.trans same))
    rw [Bytes.char_ascii small, List.mem_singleton] at mem
    subst mem
    exact ⟨UInt8.le_iff_toNat_le.mpr (value.symm ▸ UInt32.le_iff_toNat_le.mp visible),
      fun same => other notQuote (congrArg UInt8.toNat same),
      fun same => other notBackslash (congrArg UInt8.toNat same)⟩
  · have high := Bytes.char_high (Nat.le_of_not_lt small) b mem
    refine ⟨UInt8.le_trans (by decide) high, ?_, ?_⟩ <;>
      rintro rfl <;> exact absurd high (by decide)

theorem Spells.pieces {t : Bytes} {cs : List Char} (spells : Spells t cs) :
    ∃ ps, (∀ rest, Reader.pieces (t ++ 0x22 :: rest) = .ok (ps, rest)) ∧
      join ps = some (cs.flatMap String.utf8EncodeChar) := by
  induction spells with
  | done => exact ⟨[], fun rest => rfl, rfl⟩
  | @plain c t cs visible notQuote notBackslash _ ih =>
    obtain ⟨ps, read, joined⟩ := ih
    refine ⟨(String.utf8EncodeChar c).map Piece.byte ++ ps, fun rest => ?_, ?_⟩
    · rw [List.append_assoc]
      exact pieces_bytes (bytes_plain visible notQuote notBackslash) read rest
    · rw [join_bytes, joined]
      rfl
  | @escape e c t cs known _ ih =>
    obtain ⟨ps, read, joined⟩ := ih
    obtain ⟨b, escapes, encoded⟩ :
        ∃ b, simpleEscape? e = some b ∧ String.utf8EncodeChar c = [b] := by
      simp only [List.mem_cons, Prod.mk.injEq, List.not_mem_nil, or_false] at known
      rcases known with ⟨rfl, rfl⟩ | ⟨rfl, rfl⟩ | ⟨rfl, rfl⟩ | ⟨rfl, rfl⟩ | ⟨rfl, rfl⟩ |
        ⟨rfl, rfl⟩ | ⟨rfl, rfl⟩ | ⟨rfl, rfl⟩ <;> exact ⟨_, rfl, rfl⟩
    refine ⟨.byte b :: ps, fun rest => ?_, ?_⟩
    · rw [List.cons_append, List.cons_append, pieces_simple escapes, read]
      rfl
    · rw [join, joined, List.flatMap_cons, encoded]
      rfl
  | @unit a b c d u t cs digits whole _ ih =>
    obtain ⟨ps, read, joined⟩ := ih
    refine ⟨.unit u :: ps, fun rest => ?_, ?_⟩
    · simp only [List.cons_append]
      rw [pieces_unit digits, read]
      rfl
    · rw [join.eq_def]
      dsimp only
      rw [if_neg (by omega), if_neg (by omega), joined]
      rfl
  | @pair a b c d a' b' c' d' u v t cs high isHigh low isLow _ ih =>
    obtain ⟨ps, read, joined⟩ := ih
    refine ⟨.unit u :: .unit v :: ps, fun rest => ?_, ?_⟩
    · simp only [List.cons_append]
      rw [pieces_unit high, pieces_unit low, read]
      rfl
    · rw [join.eq_def]
      dsimp only
      rw [if_pos isHigh, if_pos isLow, joined]
      rfl

theorem Spells.quotes {t : Bytes} {s : String} (spells : Spells t s.toList) : Quotes t s := by
  obtain ⟨ps, read, joined⟩ := spells.pieces
  rw [← Bytes.ofString_eq_flatMap] at joined
  constructor
  · obtain ⟨t', content, split⟩ := ok_of_pieces (read [])
    obtain ⟨rfl, -⟩ := List.append_inj' split rfl
    exact content
  · intro rest
    simp [stringBody, StateT.run, read, joined, bind, Except.bind]

theorem plain_of_high {c : Char} (large : 0x80 ≤ c.toNat) : ' ' ≤ c ∧ c ≠ '"' ∧ c ≠ '\\' := by
  refine ⟨UInt32.le_iff_toNat_le.mpr (Nat.le_trans (by decide) large), ?_, ?_⟩ <;>
    rintro rfl <;> exact absurd large (by decide)

theorem spells_char {t : Bytes} {cs : List Char} (c : Char) (others : Spells t cs) :
    Spells ((String.utf8EncodeChar c).flatMap escape ++ t) (c :: cs) := by
  by_cases small : c.toNat < 0x80
  · have table : ∀ n < 0x80,
        (escape (.ofNat n) = [.ofNat n] ∧ ' ' ≤ Char.ofNat n ∧ Char.ofNat n ≠ '"' ∧
          Char.ofNat n ≠ '\\') ∨
        (∃ p ∈ [((0x22 : UInt8), '"'), (0x5C, '\\'), (0x2F, '/'), (0x62, '\x08'), (0x66, '\x0C'),
            (0x6E, '\n'), (0x72, '\r'), (0x74, '\t')],
          escape (.ofNat n) = [0x5C, p.1] ∧ Char.ofNat n = p.2) ∨
        (escape (.ofNat n) = [0x5C, 0x75, 0x30, 0x30, hexDigit (n / 16), hexDigit (n % 16)] ∧
          hexUnit? 0x30 0x30 (hexDigit (n / 16)) (hexDigit (n % 16)) = some n) := by
      decide +kernel
    have row := table c.toNat small
    rw [Char.ofNat_toNat] at row
    have alone := Bytes.char_ascii small
    rcases row with ⟨same, visible, notQuote, notBackslash⟩ | ⟨⟨e, c'⟩, known, short, rfl⟩ |
      ⟨long, unit⟩
    · rw [alone, List.flatMap_singleton, same, ← alone]
      exact .plain visible notQuote notBackslash others
    · rw [alone, List.flatMap_singleton, short]
      exact .escape known others
    · rw [alone, List.flatMap_singleton, long]
      conv => right; rw [← Char.ofNat_toNat c]
      exact .unit unit (.inl (by omega)) others
  · have large : 0x80 ≤ c.toNat := Nat.le_of_not_lt small
    obtain ⟨visible, notQuote, notBackslash⟩ := plain_of_high large
    rw [escape_char_high large]
    exact .plain visible notQuote notBackslash others

theorem spells_escape (s : String) : Spells ((Bytes.ofString s).flatMap escape) s.toList := by
  rw [Bytes.ofString_eq_flatMap, List.flatMap_assoc]
  induction s.toList with
  | nil => exact .done
  | cons c cs ih =>
    rw [List.flatMap_cons]
    exact spells_char c ih

end LedgerBroker.Json
