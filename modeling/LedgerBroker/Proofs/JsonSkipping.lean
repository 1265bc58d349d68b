import LedgerBroker.Proofs.JsonGrammar
import Mathlib.Data.List.DropRight

set_option autoImplicit false

namespace LedgerBroker.Json

open Reader

theorem Grammar.blank {b v : Bytes} (blank : Blank b) (value : IsValue v) : IsValue (b ++ v) := by
  cases value with
  | scalar blank' scalar =>
    rw [← List.append_assoc]
    exact .scalar (blank.append blank') scalar
  | container blank' inside =>
    rw [← List.append_assoc]
    exact .container (blank.append blank') inside

theorem Label.blank {b l : Bytes} (blank : Blank b) (label : Label true l) :
    Label true (b ++ l) := by
  obtain ⟨b', n, c, blank', content, after, rfl⟩ := label
  exact ⟨b ++ b', n, c, blank.append blank', content, after, (List.append_assoc ..).symm⟩

theorem Grammar.first {inObject : Bool} {b l v t : Bytes} (blank : Blank b)
    (label : Label inObject l) (value : IsValue v) (others : Grammar (.rest inObject false) t) :
    Grammar (.rest inObject true) (b ++ (l ++ (v ++ t))) := by
  have none : Separator true [] := rfl
  cases inObject with
  | true =>
    rw [← List.append_assoc]
    exact .next none (label.blank blank) value others
  | false =>
    obtain rfl := label
    have nothing : Label false [] := rfl
    rw [List.nil_append, ← List.append_assoc]
    exact .next none nothing (value.blank blank) others

def Closes : List Bool → Bytes → Prop
  | [], t => t = []
  | inObject :: outer, t =>
    ∃ u w, Grammar (.rest inObject false) u ∧ Closes outer w ∧ t = u ++ w

def Opens (stack : List Bool) (t : Bytes) : Prop :=
  ∃ v w, IsValue v ∧ Closes stack w ∧ t = v ++ w

def Awaits : List Bool → Bytes → Prop
  | [], t => t = []
  | stack, t => Opens stack t

namespace Reader

variable {stack left : List Bool} {inObject : Bool} {input rest : Bytes}

def label (inObject : Bool) : Reader Unit := if inObject then skipName else pure ()

theorem run_label_iff : StateT.run (label inObject) input = .ok ((), rest) ↔
    ∃ l, Label inObject l ∧ input = l ++ rest := by
  cases inObject with
  | true => exact run_skipName_iff
  | false =>
    constructor
    · intro h
      obtain ⟨-, rfl⟩ := Prod.mk.inj (Except.ok.inj h)
      exact ⟨[], rfl, rfl⟩
    · rintro ⟨_, rfl, rfl⟩
      rfl

theorem leave_cons (inObject : Bool) (outer : List Bool) : leave (inObject :: outer) = (do
    match ← peek with
    | none => malformed
    | some c =>
      if c = 0x2C then
        skip
        label inObject
        return inObject :: outer
      else if c = closing inObject then
        skip
        leave outer
      else malformed) := by
  cases inObject <;> rfl

theorem ok_of_leave (h : StateT.run (leave stack) input = .ok (left, rest)) :
    ∃ u, input = u ++ rest ∧ ∀ w, Awaits left w → Closes stack (u ++ w) := by
  induction stack generalizing input with
  | nil =>
    obtain ⟨rfl, rfl⟩ := Prod.mk.inj (Except.ok.inj h)
    exact ⟨[], rfl, fun w none => none⟩
  | cons inObject outer ih =>
    rw [leave_cons] at h
    obtain ⟨next, between, peeked, goesOn⟩ := ok_of_run_bind h
    obtain ⟨b, blank, rfl, seen⟩ := ok_of_peek peeked
    cases next with
    | none => cases goesOn
    | some c =>
      obtain ⟨t, rfl⟩ := List.head?_eq_some_iff.mp seen
      dsimp only at goesOn
      split at goesOn
      next comma =>
        subst comma
        rw [run_bind_ok (run_skip _ _)] at goesOn
        obtain ⟨_, _, labelled, done⟩ := ok_of_run_bind goesOn
        obtain ⟨rfl, rfl⟩ := Prod.mk.inj (Except.ok.inj done)
        obtain ⟨l, label, rfl⟩ := run_label_iff.mp labelled
        refine ⟨b ++ [0x2C] ++ l, by simp, ?_⟩
        rintro _ ⟨v, _, value, ⟨u, w, others, closes, rfl⟩, rfl⟩
        exact ⟨_, w, .next ⟨b, blank, rfl⟩ label value others, closes, by simp⟩
      next =>
        split at goesOn
        next closed =>
          subst closed
          rw [run_bind_ok (run_skip _ _)] at goesOn
          obtain ⟨u, rfl, closes⟩ := ih goesOn
          refine ⟨b ++ [closing inObject] ++ u, by simp, fun w awaited => ?_⟩
          exact ⟨_, _, .close blank, closes w awaited, by simp⟩
        next => cases goesOn

def beginInside (stack : List Bool) (inObject : Bool) : Reader (List Bool) := do
  if (← peek) = some (closing inObject) then
    skip
    leave stack
  else
    label inObject
    return inObject :: stack

theorem ok_of_begin {b : Bytes} (blank : Blank b)
    (h : StateT.run (beginInside stack inObject) input = .ok (left, rest)) :
    ∃ u, input = u ++ rest ∧
      ∀ w, Awaits left w → Opens stack (b ++ opening inObject :: (u ++ w)) := by
  obtain ⟨next, between, peeked, goesOn⟩ := ok_of_run_bind h
  obtain ⟨b', blank', rfl, seen⟩ := ok_of_peek peeked
  split at goesOn
  next closed =>
    obtain ⟨t, rfl⟩ := List.head?_eq_some_iff.mp (seen.trans closed)
    rw [run_bind_ok (run_skip _ _)] at goesOn
    obtain ⟨u, rfl, closes⟩ := ok_of_leave goesOn
    refine ⟨b' ++ [closing inObject] ++ u, by simp, fun w awaited => ?_⟩
    exact ⟨b ++ opening inObject :: (b' ++ [closing inObject]), _, .container blank (.close blank'),
      closes w awaited, by simp⟩
  next =>
    obtain ⟨_, _, labelled, done⟩ := ok_of_run_bind goesOn
    obtain ⟨rfl, rfl⟩ := Prod.mk.inj (Except.ok.inj done)
    obtain ⟨l, label, rfl⟩ := run_label_iff.mp labelled
    refine ⟨b' ++ l, by simp, ?_⟩
    rintro _ ⟨v, _, value, ⟨u, w, others, closes, rfl⟩, rfl⟩
    have first : Grammar (.rest inObject true) (b' ++ (l ++ (v ++ u))) :=
      .first blank' label value others
    exact ⟨_, w, .container blank first, closes, by simp⟩

theorem enter_eq (stack : List Bool) : enter stack = (do
    match ← lead with
    | .array => skip; beginInside stack false
    | .object => skip; beginInside stack true
    | scalar => skipScalar scalar; leave stack) := by
  rfl

theorem ok_of_enter (h : StateT.run (enter stack) input = .ok (left, rest)) :
    ∃ u, input = u ++ rest ∧ ∀ w, Awaits left w → Opens stack (u ++ w) := by
  rw [enter_eq] at h
  obtain ⟨l, between, led, goesOn⟩ := ok_of_run_bind h
  obtain ⟨b, c, t, blank, rfl, leads, rfl⟩ := ok_of_lead led
  have container (inObject : Bool) (opens : c = opening inObject)
      (begins : StateT.run (beginInside stack inObject) t = .ok (left, rest)) :
      ∃ u, b ++ c :: t = u ++ rest ∧ ∀ w, Awaits left w → Opens stack (u ++ w) := by
    subst opens
    obtain ⟨u, rfl, closes⟩ := ok_of_begin blank begins
    exact ⟨b ++ opening inObject :: u, by simp, fun w awaited => by simpa using closes w awaited⟩
  have scalar (notArray : l ≠ .array) (notObject : l ≠ .object)
      (skips : StateT.run (do skipScalar l; leave stack) (c :: t) = .ok (left, rest)) :
      ∃ u, b ++ c :: t = u ++ rest ∧ ∀ w, Awaits left w → Opens stack (u ++ w) := by
    obtain ⟨_, _, skipped, closed⟩ := ok_of_run_bind skips
    obtain ⟨v, scalar, split⟩ := ok_of_skipScalar leads notArray notObject skipped
    obtain ⟨u, rfl, closes⟩ := ok_of_leave closed
    exact ⟨b ++ v ++ u, by simp [split], fun w awaited =>
      ⟨b ++ v, _, .scalar blank scalar, closes w awaited, by simp⟩⟩
  cases l with
  | array => exact container false ((first_of_leadOf leads).2.1 rfl) goesOn
  | object => exact container true ((first_of_leadOf leads).2.2 rfl) goesOn
  | _ => exact scalar nofun nofun goesOn

theorem ok_of_skipOpen {turns : Nat}
    (h : StateT.run (skipOpen turns stack) input = .ok ((), rest)) :
    ∃ u, Opens stack u ∧ input = u ++ rest := by
  induction turns generalizing stack input with
  | zero => cases h
  | succ turns ih =>
    obtain ⟨left, between, entered, goesOn⟩ := ok_of_run_bind h
    obtain ⟨u, rfl, opens⟩ := ok_of_enter entered
    cases left with
    | nil =>
      obtain ⟨-, rfl⟩ := Prod.mk.inj (Except.ok.inj goesOn)
      have whole := opens [] rfl
      rw [List.append_nil] at whole
      exact ⟨u, whole, rfl⟩
    | cons inObject outer =>
      obtain ⟨w, awaited, rfl⟩ := ih goesOn
      exact ⟨u ++ w, opens w awaited, by simp⟩

theorem ok_of_skipValue (h : StateT.run skipValue input = .ok ((), rest)) :
    ∃ v, IsValue v ∧ input = v ++ rest := by
  have opened : StateT.run (skipOpen (input.length + 1) []) input = .ok ((), rest) := h
  obtain ⟨_, ⟨v, w, value, rfl, rfl⟩, rfl⟩ := ok_of_skipOpen opened
  exact ⟨v, value, by simp⟩

/-- The blanks in front make no difference. -/
def Trims {α : Type} (reader : Reader α) : Prop :=
  ∀ input, StateT.run reader (input.dropWhile isBlank) = StateT.run reader input

theorem trims_peek : Trims peek := by
  intro input
  simp [peek, StateT.run, List.dropWhile_idempotent]

theorem Trims.bind {α β : Type} {x : Reader α} {f : α → Reader β} (trims : Trims x) :
    Trims (x >>= f) := by
  intro input
  rw [StateT.run_bind, StateT.run_bind, trims]

theorem trims_expect (c : UInt8) : Trims (expect c) := trims_peek.bind

theorem trims_lead : Trims lead := trims_peek.bind

theorem trims_enter (stack : List Bool) : Trims (enter stack) := trims_lead.bind

theorem trims_skipName : Trims skipName := (trims_expect _).bind

def resume (turns : Nat) : List Bool → Reader Unit
  | [] => return ()
  | stack => skipOpen turns stack

theorem skipOpen_succ (turns : Nat) (stack : List Bool) :
    skipOpen (turns + 1) stack = enter stack >>= resume turns := rfl

theorem trims_inside (turns : Nat) (stack : List Bool) :
    Trims (label inObject >>= fun _ => skipOpen turns (inObject :: stack)) := by
  cases inObject with
  | true => exact trims_skipName.bind
  | false =>
    cases turns with
    | zero => exact fun _ => rfl
    | succ turns => exact (trims_enter (false :: stack)).bind (f := resume turns)

end Reader

theorem Grammar.lead {v : Bytes} (value : IsValue v) :
    ∃ b c t l, Blank b ∧ leadOf c = some l ∧ v = b ++ c :: t := by
  cases value with
  | @scalar b t blank scalar =>
    have ended : Ended [] := nofun
    obtain ⟨c, u, l, rfl, leads, -⟩ := run_skipScalar scalar ended
    exact ⟨b, c, u, l, blank, leads, rfl⟩
  | @container inObject b t blank _ =>
    cases inObject with
    | true => exact ⟨b, 0x7B, t, .object, blank, rfl, rfl⟩
    | false => exact ⟨b, 0x5B, t, .array, blank, rfl, rfl⟩

theorem Label.begins {inObject : Bool} {l v : Bytes} (label : Label inObject l) (value : IsValue v)
    (rest : Bytes) : ∃ b c t, Blank b ∧ isBlank c = false ∧ c ≠ closing inObject ∧
      l ++ (v ++ rest) = b ++ c :: t := by
  cases inObject with
  | true =>
    obtain ⟨b, n, c, blank, -, -, rfl⟩ := label
    exact ⟨b, 0x22, _, blank, rfl, by decide, by simp; rfl⟩
  | false =>
    obtain rfl := label
    obtain ⟨b, c, t, l, blank, leads, rfl⟩ := value.lead
    refine ⟨b, c, t ++ rest, blank, visible_of_leadOf leads, ?_, by simp⟩
    rintro rfl
    cases leads

namespace Reader

variable {stack : List Bool} {inObject : Bool} {rest : Bytes} {turns : Nat}

theorem run_beginInsidenext {l v : Bytes} (before : Label inObject l) (value : IsValue v) :
    StateT.run (beginInside stack inObject >>= resume turns) (l ++ (v ++ rest)) =
      StateT.run (skipOpen turns (inObject :: stack)) (v ++ rest) := by
  obtain ⟨b, c, t, blank, visible, other, split⟩ := before.begins value rest
  have peeked : StateT.run peek (l ++ (v ++ rest)) =
      .ok (some c, (l ++ (v ++ rest)).dropWhile isBlank) := by
    rw [split, run_peek_blank blank visible, List.dropWhile_append_of_pos blank,
      List.dropWhile_cons_of_neg (by simp [visible])]
  have others : ¬some c = some (closing inObject) := fun same => other (Option.some.inj same)
  calc
    _ = StateT.run (label inObject >>= fun _ => skipOpen turns (inObject :: stack))
        ((l ++ (v ++ rest)).dropWhile isBlank) := by
      rw [beginInside, bind_assoc, run_bind_ok peeked, if_neg others, bind_assoc]
      rfl
    _ = _ := trims_inside turns stack _
    _ = _ := run_bind_ok (run_label_iff.mpr ⟨l, before, rfl⟩)

def goOn (turns : Nat) (stack : List Bool) : Reader Unit := leave stack >>= resume turns

theorem run_beginInsideclose {b : Bytes} (blank : Blank b) :
    StateT.run (beginInside stack inObject >>= resume turns) (b ++ closing inObject :: rest) =
      StateT.run (goOn turns stack) rest := by
  have peeked := run_peek_blank (c := closing inObject) blank (by cases inObject <;> rfl) rest
  rw [beginInside, bind_assoc, run_bind_ok peeked, if_pos rfl, bind_assoc,
    run_bind_ok (run_skip _ _)]
  rfl

theorem run_goOn_close {b : Bytes} (blank : Blank b) :
    StateT.run (goOn turns (inObject :: stack)) (b ++ closing inObject :: rest) =
      StateT.run (goOn turns stack) rest := by
  have peeked := run_peek_blank (c := closing inObject) blank (by cases inObject <;> rfl) rest
  have noComma : closing inObject ≠ 0x2C := by cases inObject <;> decide
  rw [goOn, leave_cons, bind_assoc, run_bind_ok peeked]
  dsimp only
  rw [if_neg noComma, if_pos rfl, bind_assoc, run_bind_ok (run_skip _ _)]
  rfl

theorem run_goOn_next {b l : Bytes} (blank : Blank b) (before : Label inObject l) :
    StateT.run (goOn turns (inObject :: stack)) (b ++ 0x2C :: (l ++ rest)) =
      StateT.run (skipOpen turns (inObject :: stack)) rest := by
  rw [goOn, leave_cons, bind_assoc, run_bind_ok (run_peek_blank blank rfl _)]
  dsimp only
  rw [if_pos rfl, bind_assoc, run_bind_ok (run_skip _ _), bind_assoc,
    run_bind_ok (run_label_iff.mpr ⟨l, before, rfl⟩)]
  rfl

theorem run_enter_scalar {b t : Bytes} (blank : Blank b) (scalar : Scalar t) (ended : Ended rest) :
    StateT.run (enter stack) (b ++ (t ++ rest)) = StateT.run (leave stack) rest := by
  obtain ⟨c, u, l, rfl, leads, notArray, notObject, read⟩ := run_skipScalar scalar ended
  refine (run_bind_ok (run_lead_blank blank leads (u ++ rest))).trans ?_
  cases l with
  | array => exact absurd rfl notArray
  | object => exact absurd rfl notObject
  | _ => exact run_bind_ok read

theorem run_enter_container {b : Bytes} (blank : Blank b) :
    StateT.run (enter stack) (b ++ opening inObject :: rest) =
      StateT.run (beginInside stack inObject) rest := by
  cases inObject with
  | true => exact (run_bind_ok (run_lead_blank blank rfl rest)).trans (run_bind_ok (run_skip _ _))
  | false => exact (run_bind_ok (run_lead_blank blank rfl rest)).trans (run_bind_ok (run_skip _ _))

def machine (turns : Nat) (stack : List Bool) : Part → Reader Unit
  | .value => skipOpen turns stack
  | .rest inObject true => beginInside stack inObject >>= resume turns
  | .rest inObject false => goOn turns (inObject :: stack)

theorem run_machine {part : Part} {t : Bytes} (grammar : Grammar part t) :
    ∀ (turns : Nat) (stack : List Bool) (rest : Bytes), Ended rest → t.length ≤ turns →
      ∃ left, turns ≤ left + t.length ∧
        StateT.run (machine turns stack part) (t ++ rest) = StateT.run (goOn left stack) rest := by
  -- No value takes more turns than it has bytes, and so there are turns left for what follows it.
  induction grammar with
  | @scalar b t blank scalar =>
    intro turns stack rest ended enough
    obtain ⟨c, u, -, rfl, -⟩ := run_skipScalar scalar ended
    obtain ⟨turns, rfl⟩ : ∃ n, turns = n + 1 := ⟨turns - 1, by simp at enough; omega⟩
    refine ⟨turns, by simp; omega, ?_⟩
    rw [machine, skipOpen_succ, StateT.run_bind, List.append_assoc,
      run_enter_scalar blank scalar ended, ← StateT.run_bind, goOn]
  | @container inObject b t blank _ ih =>
    intro turns stack rest ended enough
    obtain ⟨turns, rfl⟩ : ∃ n, turns = n + 1 := ⟨turns - 1, by simp at enough; omega⟩
    simp only [List.length_append, List.length_cons] at enough ⊢
    obtain ⟨left, bound, run⟩ := ih turns stack rest ended (by omega)
    refine ⟨left, by omega, ?_⟩
    rw [machine, skipOpen_succ, StateT.run_bind, List.append_assoc, List.cons_append,
      run_enter_container blank, ← StateT.run_bind]
    exact run
  | @close inObject first b blank =>
    intro turns stack rest _ _
    refine ⟨turns, Nat.le_add_right .., ?_⟩
    rw [List.append_assoc, List.singleton_append]
    cases first with
    | true => exact run_beginInsideclose blank
    | false => exact run_goOn_close blank
  | @next inObject first s l v t separator label value others ihValue ihOthers =>
    intro turns stack rest ended enough
    simp only [List.length_append] at enough ⊢
    obtain ⟨between, bound, run⟩ := ihValue turns (inObject :: stack) (t ++ rest)
      (others.ended rest) (by omega)
    obtain ⟨left, bound', run'⟩ := ihOthers between stack rest ended (by omega)
    refine ⟨left, by omega, ?_⟩
    have inside : StateT.run (machine turns stack (.rest inObject first))
        (s ++ (l ++ (v ++ t)) ++ rest) =
          StateT.run (skipOpen turns (inObject :: stack)) (v ++ (t ++ rest)) := by
      cases first with
      | true =>
        obtain rfl := separator
        rw [List.nil_append, List.append_assoc, List.append_assoc]
        exact run_beginInsidenext label value
      | false =>
        obtain ⟨b, blank, rfl⟩ := separator
        simp only [List.append_assoc, List.cons_append, List.nil_append]
        exact run_goOn_next blank label
    rw [inside]
    exact run.trans run'

theorem run_skipValue {t : Bytes} (value : IsValue t) (ended : Ended rest) :
    StateT.run skipValue (t ++ rest) = .ok ((), rest) := by
  have enough : t.length ≤ (t ++ rest).length + 1 := by simp; omega
  obtain ⟨left, -, run⟩ := run_machine value _ [] rest ended enough
  exact run

end Reader

end LedgerBroker.Json
