import LedgerBroker.Proofs.Call
import LedgerBroker.Proofs.JsonText
import Mathlib.Tactic.SplitIfs

set_option autoImplicit false

namespace LedgerBroker.Json

open Reader

def Blank (t : Bytes) : Prop := ∀ b ∈ t, isBlank b = true

def Digits (t : Bytes) : Prop := t ≠ [] ∧ ∀ b ∈ t, Bytes.isDigit b = true

-- No zero stands in front of other digits.
def Whole (t : Bytes) : Prop := Digits t ∧ (t.head? = some 0x30 → t = [0x30])

def Fraction (t : Bytes) : Prop := t = [] ∨ ∃ ds, Digits ds ∧ t = 0x2E :: ds

def Exponent (t : Bytes) : Prop :=
  t = [] ∨ ∃ e sign ds, (e = 0x65 ∨ e = 0x45) ∧ (sign = [] ∨ sign = [0x2B] ∨ sign = [0x2D]) ∧
    Digits ds ∧ t = e :: (sign ++ ds)

def Unsigned (t : Bytes) : Prop :=
  ∃ w f e, Whole w ∧ Fraction f ∧ Exponent e ∧ t = w ++ (f ++ e)

def IsHex (b : UInt8) : Prop :=
  0x30 ≤ b ∧ b ≤ 0x39 ∨ 0x41 ≤ b ∧ b ≤ 0x46 ∨ 0x61 ≤ b ∧ b ≤ 0x66

inductive Content : Bytes → Prop
  | done : Content []
  | plain {b : UInt8} {t : Bytes} (visible : 0x20 ≤ b) (notQuote : b ≠ 0x22)
      (notBackslash : b ≠ 0x5C) (others : Content t) : Content (b :: t)
  | escape {e : UInt8} {t : Bytes} (known : e ∈ [0x22, 0x5C, 0x2F, 0x62, 0x66, 0x6E, 0x72, 0x74])
      (others : Content t) : Content (0x5C :: e :: t)
  | unit {a b c d : UInt8} {t : Bytes} (digits : ∀ x ∈ [a, b, c, d], IsHex x)
      (others : Content t) : Content (0x5C :: 0x75 :: a :: b :: c :: d :: t)

inductive Scalar : Bytes → Prop
  | word {w : String} (known : w = "null" ∨ w = "true" ∨ w = "false") : Scalar (Bytes.ofString w)
  | number {t : Bytes} (number : Unsigned t) : Scalar t
  | negative {t : Bytes} (number : Unsigned t) : Scalar (0x2D :: t)
  | string {t : Bytes} (content : Content t) : Scalar (0x22 :: (t ++ [0x22]))

def opening (inObject : Bool) : UInt8 := if inObject then 0x7B else 0x5B

def closing (inObject : Bool) : UInt8 := if inObject then 0x7D else 0x5D

def Separator : Bool → Bytes → Prop
  | true, t => t = []
  | false, t => ∃ b, Blank b ∧ t = b ++ [0x2C]

def Label : Bool → Bytes → Prop
  | false, t => t = []
  | true, t =>
    ∃ b n c, Blank b ∧ Content n ∧ Blank c ∧ t = b ++ 0x22 :: (n ++ 0x22 :: (c ++ [0x3A]))

inductive Part
  | value
  | rest (inObject first : Bool)

inductive Grammar : Part → Bytes → Prop
  | scalar {b t : Bytes} (blank : Blank b) (scalar : Scalar t) : Grammar .value (b ++ t)
  | container {inObject : Bool} {b t : Bytes} (blank : Blank b)
      (inside : Grammar (.rest inObject true) t) : Grammar .value (b ++ opening inObject :: t)
  | close {inObject first : Bool} {b : Bytes} (blank : Blank b) :
      Grammar (.rest inObject first) (b ++ [closing inObject])
  | next {inObject first : Bool} {s l v t : Bytes} (separator : Separator first s)
      (label : Label inObject l) (value : Grammar .value v)
      (others : Grammar (.rest inObject false) t) :
      Grammar (.rest inObject first) (s ++ (l ++ (v ++ t)))

abbrev IsValue : Bytes → Prop := Grammar .value

def IsJson (t : Bytes) : Prop := ∃ v b, IsValue v ∧ Blank b ∧ t = v ++ b

theorem Blank.nil : Blank [] := fun _ mem => nomatch mem

theorem Blank.append {b c : Bytes} (hb : Blank b) (hc : Blank c) : Blank (b ++ c) :=
  fun x mem => (List.mem_append.mp mem).elim (hb x) (hc x)

def NoDigit (rest : Bytes) : Prop := ∀ c ∈ rest.head?, Bytes.isDigit c = false

theorem blank_cases {b : UInt8} (blank : isBlank b = true) :
    b = 0x20 ∨ b = 0x09 ∨ b = 0x0A ∨ b = 0x0D := by
  simpa [isBlank, or_assoc] using blank

theorem visible_of_isDigit {b : UInt8} (digit : Bytes.isDigit b = true) : isBlank b = false := by
  refine Bool.eq_false_iff.mpr fun blank => ?_
  rcases blank_cases blank with rfl | rfl | rfl | rfl <;> cases digit

theorem Ended.noNumber {rest : Bytes} (ended : Ended rest) {c : UInt8} (first : c ∈ rest.head?) :
    Bytes.isDigit c = false ∧ c ≠ 0x2E ∧ c ≠ 0x65 ∧ c ≠ 0x45 := by
  rcases ended c first with blank | rfl | rfl | rfl
  · rcases blank_cases blank with rfl | rfl | rfl | rfl <;> decide
  all_goals decide

theorem Exponent.noDigit {t rest : Bytes} (exponent : Exponent t) (ended : Ended rest) :
    ∀ c ∈ (t ++ rest).head?, Bytes.isDigit c = false ∧ c ≠ 0x2E := by
  intro c first
  rcases exponent with rfl | ⟨letter, _, _, rfl | rfl, _, _, rfl⟩
  · exact ⟨(ended.noNumber first).1, (ended.noNumber first).2.1⟩
  all_goals
    cases first
    decide

theorem Fraction.noDigit {t rest : Bytes} (fraction : Fraction t) (stops : NoDigit rest) :
    NoDigit (t ++ rest) := by
  rcases fraction with rfl | ⟨ds, _, rfl⟩
  · exact stops
  · rintro _ ⟨⟩
    rfl

theorem Unsigned.head {t : Bytes} (number : Unsigned t) :
    ∃ d u, t = d :: u ∧ Bytes.isDigit d = true := by
  obtain ⟨w, f, e, ⟨⟨notNone, digits⟩, _⟩, _, _, rfl⟩ := number
  obtain ⟨d, u, rfl⟩ := List.exists_cons_of_ne_nil notNone
  exact ⟨d, _, rfl, digits d List.mem_cons_self⟩

theorem Ended.append {b : Bytes} (blank : Blank b) {rest : Bytes} (ended : Ended rest) :
    Ended (b ++ rest) := by
  cases b with
  | nil => exact ended
  | cons c b =>
    rintro _ ⟨⟩
    exact .inl (blank c List.mem_cons_self)

theorem Blank.ended {b : Bytes} (blank : Blank b) : Ended b := by
  simpa using Ended.nil.append blank

theorem ended_closing (inObject : Bool) (rest : Bytes) : Ended (closing inObject :: rest) := by
  rintro _ ⟨⟩
  cases inObject
  · exact .inr (.inr (.inl rfl))
  · exact .inr (.inr (.inr rfl))

theorem Separator.ended {s : Bytes} (separator : Separator false s) (rest : Bytes) :
    Ended (s ++ rest) := by
  obtain ⟨b, blank, rfl⟩ := separator
  rw [List.append_assoc]
  refine .append blank ?_
  rintro _ ⟨⟩
  exact .inr (.inl rfl)

theorem Grammar.ended {inObject : Bool} {t : Bytes} (inside : Grammar (.rest inObject false) t)
    (rest : Bytes) : Ended (t ++ rest) := by
  cases inside with
  | close blank =>
    rw [List.append_assoc]
    exact .append blank (ended_closing inObject rest)
  | next separator label value others =>
    rw [List.append_assoc]
    exact separator.ended _

def EndsVisible (t : Bytes) : Prop := ∃ u c, t = u ++ [c] ∧ isBlank c = false

theorem EndsVisible.append {t : Bytes} (ends : EndsVisible t) (s : Bytes) :
    EndsVisible (s ++ t) := by
  obtain ⟨u, c, rfl, visible⟩ := ends
  exact ⟨s ++ u, c, (List.append_assoc ..).symm, visible⟩

theorem EndsVisible.cons {t : Bytes} (ends : EndsVisible t) (b : UInt8) : EndsVisible (b :: t) :=
  ends.append [b]

theorem Digits.ends {t : Bytes} (digits : Digits t) : EndsVisible t :=
  ⟨_, _, (List.dropLast_concat_getLast digits.1).symm,
    visible_of_isDigit (digits.2 _ (List.getLast_mem digits.1))⟩

theorem Unsigned.ends {t : Bytes} (number : Unsigned t) : EndsVisible t := by
  obtain ⟨w, f, e, ⟨digits, -⟩, fraction, exponent, rfl⟩ := number
  rcases exponent with rfl | ⟨letter, sign, ds, -, -, power, rfl⟩
  · rw [List.append_nil]
    rcases fraction with rfl | ⟨ds, places, rfl⟩
    · rw [List.append_nil]
      exact digits.ends
    · exact (places.ends.cons _).append w
  · exact (((power.ends.append sign).cons letter).append f).append w

theorem Scalar.ends {t : Bytes} (scalar : Scalar t) : EndsVisible t := by
  cases scalar with
  | word known =>
    rcases known with rfl | rfl | rfl
    · exact ⟨_, 0x6C, (rfl : _ = Bytes.ofString "nul" ++ _), rfl⟩
    · exact ⟨_, 0x65, (rfl : _ = Bytes.ofString "tru" ++ _), rfl⟩
    · exact ⟨_, 0x65, (rfl : _ = Bytes.ofString "fals" ++ _), rfl⟩
  | number number => exact number.ends
  | negative number => exact number.ends.cons _
  | @string t _ => exact ⟨0x22 :: t, 0x22, rfl, rfl⟩

theorem Grammar.ends {part : Part} {t : Bytes} (grammar : Grammar part t) : EndsVisible t := by
  induction grammar with
  | scalar _ scalar => exact scalar.ends.append _
  | container _ _ ih => exact (ih.cons _).append _
  | @close inObject _ b _ => exact ⟨b, closing inObject, rfl, by cases inObject <;> rfl⟩
  | next _ _ _ _ _ ih => exact ((ih.append _).append _).append _

namespace Reader

variable {α β : Type} {input rest : Bytes} {c : UInt8}

theorem ok_of_run_bind {x : Reader α} {f : α → Reader β} {b : β}
    (h : StateT.run (x >>= f) input = .ok (b, rest)) :
    ∃ a between, StateT.run x input = .ok (a, between) ∧
      StateT.run (f a) between = .ok (b, rest) := by
  rw [StateT.run_bind] at h
  obtain ⟨⟨a, between⟩, first, second⟩ := ok_of_bind h
  exact ⟨a, between, first, second⟩

theorem ok_of_peek {next : Option UInt8} (h : StateT.run peek input = .ok (next, rest)) :
    ∃ b, Blank b ∧ input = b ++ rest ∧ rest.head? = next := by
  obtain ⟨rfl, rfl⟩ := Prod.mk.inj (Except.ok.inj h)
  exact ⟨input.takeWhile isBlank, List.all_eq_true.mp List.all_takeWhile,
    List.takeWhile_append_dropWhile.symm, rfl⟩

theorem run_peek_blank {b : Bytes} (blank : Blank b) (visible : isBlank c = false) (t : Bytes) :
    StateT.run peek (b ++ c :: t) = .ok (some c, c :: t) := by
  have skipped : (b ++ c :: t).dropWhile isBlank = c :: t := by
    rw [List.dropWhile_append_of_pos blank, List.dropWhile_cons_of_neg (by simp [visible])]
  simp [peek, StateT.run, skipped]

theorem run_expect_iff (visible : isBlank c = false) :
    StateT.run (expect c) input = .ok ((), rest) ↔ ∃ b, Blank b ∧ input = b ++ c :: rest := by
  constructor
  · intro h
    obtain ⟨next, between, peeked, skipped⟩ := ok_of_run_bind h
    obtain ⟨b, blank, rfl, seen⟩ := ok_of_peek peeked
    split at skipped
    next found =>
      obtain ⟨t, rfl⟩ : ∃ t, between = c :: t := List.head?_eq_some_iff.mp (seen.trans found)
      obtain ⟨-, rfl⟩ := Prod.mk.inj (Except.ok.inj skipped)
      exact ⟨b, blank, rfl⟩
    next => cases skipped
  · rintro ⟨b, blank, rfl⟩
    rw [expect, run_bind_ok (run_peek_blank blank visible rest), if_pos rfl]
    rfl

theorem run_literal_iff {word : String} :
    StateT.run (literal word) input = .ok ((), rest) ↔ input = Bytes.ofString word ++ rest := by
  constructor
  · intro h
    simp only [literal, StateT.run] at h
    split at h
    next starts =>
      obtain ⟨t, rfl⟩ := List.isPrefixOf_iff_prefix.mp starts
      obtain ⟨-, rfl⟩ := Prod.mk.inj (Except.ok.inj h)
      rw [List.drop_left]
    next => cases h
  · rintro rfl
    have starts : (Bytes.ofString word).isPrefixOf (Bytes.ofString word ++ rest) = true :=
      List.isPrefixOf_iff_prefix.mpr (List.prefix_append ..)
    simp [literal, StateT.run, starts]

theorem digitRun_append {t : Bytes} (digits : ∀ b ∈ t, Bytes.isDigit b = true)
    (stops : NoDigit rest) :
    digitRun (t ++ rest) = (t.map fun b => (b - 0x30).toNat, rest) := by
  induction t with
  | nil =>
    cases rest with
    | nil => rfl
    | cons c rest => simp [digitRun, stops c rfl]
  | cons b t ih =>
    rw [List.cons_append, digitRun, if_pos (digits b List.mem_cons_self),
      ih fun x mem => digits x (List.mem_cons_of_mem _ mem)]
    rfl

theorem exists_digitRun (input : Bytes) : ∃ t, (∀ b ∈ t, Bytes.isDigit b = true) ∧
    input = t ++ (digitRun input).2 ∧ (digitRun input).1 = t.map fun b => (b - 0x30).toNat := by
  induction input with
  | nil => exact ⟨[], nofun, rfl, rfl⟩
  | cons b rest ih =>
    rw [digitRun]
    split
    next digit =>
      obtain ⟨t, digits, split, values⟩ := ih
      exact ⟨b :: t, List.forall_mem_cons.mpr ⟨digit, digits⟩, congrArg (b :: ·) split,
        congrArg ((b - 0x30).toNat :: ·) values⟩
    next => exact ⟨[], nofun, rfl, rfl⟩

theorem ok_of_digitRun {d : Nat} {ds : List Nat} (h : digitRun input = (d :: ds, rest)) :
    ∃ t, Digits t ∧ input = t ++ rest := by
  obtain ⟨t, digits, split, values⟩ := exists_digitRun input
  rw [h] at split values
  refine ⟨t, ⟨?_, digits⟩, split⟩
  rintro rfl
  cases values

theorem digitRun_digits {t : Bytes} (digits : Digits t) (stops : NoDigit rest) :
    ∃ d ds, digitRun (t ++ rest) = (d :: ds, rest) := by
  obtain ⟨b, u, rfl⟩ := List.exists_cons_of_ne_nil digits.1
  exact ⟨_, _, digitRun_append digits.2 stops⟩

theorem digit_eq_zero_iff {b : UInt8} : (b - 0x30).toNat = 0 ↔ b = 0x30 := by
  rw [← UInt8.toNat_zero, UInt8.toNat_inj, UInt8.sub_eq_iff_eq_add, UInt8.zero_add]

theorem ok_of_wholePart {ds : List Nat} (h : wholePart input = .ok (ds, rest)) :
    ∃ t, Whole t ∧ ds = (t.map fun b => (b - 0x30).toNat) ∧ input = t ++ rest := by
  obtain ⟨t, digits, split, values⟩ := exists_digitRun input
  unfold wholePart at h
  split at h
  next => cases h
  next => cases h
  next notNone notZero =>
    obtain ⟨rfl, rfl⟩ := Prod.mk.inj (Except.ok.inj h).symm
    refine ⟨t, ⟨⟨?_, digits⟩, fun zero => ?_⟩, values, split⟩
    · rintro rfl
      exact notNone _ (Prod.ext values rfl)
    · -- The values of the digits begin with a zero as the digits do.
      obtain ⟨u, rfl⟩ := List.head?_eq_some_iff.mp zero
      cases u with
      | nil => rfl
      | cons d u => exact (notZero _ _ _ (Prod.ext values rfl)).elim

theorem wholePart_append {t : Bytes} (whole : Whole t) (stops : NoDigit rest) :
    wholePart (t ++ rest) = .ok (t.map fun b => (b - 0x30).toNat, rest) := by
  obtain ⟨⟨notNone, digits⟩, alone⟩ := whole
  obtain ⟨b, u, rfl⟩ := List.exists_cons_of_ne_nil notNone
  unfold wholePart
  rw [digitRun_append digits stops]
  split
  next none => cases none
  next others =>
    obtain ⟨zero, others⟩ := List.cons.inj (congrArg Prod.fst others)
    obtain ⟨-, rfl⟩ := List.cons.inj (alone (congrArg some (digit_eq_zero_iff.mp zero)))
    cases others
  next => rfl

theorem ok_of_fractionPart {ds : Option (List Nat)} (h : fractionPart input = .ok (ds, rest)) :
    ∃ t, Fraction t ∧ input = t ++ rest := by
  unfold fractionPart at h
  split at h
  next after =>
    cases run : digitRun after with
    | mk values left =>
      rw [run] at h
      cases values with
      | nil => cases h
      | cons d values =>
        obtain ⟨t, digits, rfl⟩ := ok_of_digitRun run
        obtain ⟨-, rfl⟩ := Prod.mk.inj (Except.ok.inj h)
        exact ⟨0x2E :: t, .inr ⟨t, digits, rfl⟩, rfl⟩
  next => exact ⟨[], .inl rfl, congrArg Prod.snd (Except.ok.inj h)⟩

theorem rest_of_fractionPart (h : fractionPart input = .ok (none, rest)) : rest = input := by
  unfold fractionPart at h
  split at h
  next after =>
    rcases run : digitRun after with ⟨_ | _, _⟩ <;> rw [run] at h <;> cases h
  next => exact (congrArg Prod.snd (Except.ok.inj h)).symm

theorem fractionPart_none (noPoint : rest.head? ≠ some 0x2E) :
    fractionPart rest = .ok (none, rest) := by
  unfold fractionPart
  split
  next => exact absurd rfl noPoint
  next => rfl

theorem fractionPart_append {t : Bytes} (fraction : Fraction t) (stops : NoDigit rest)
    (noPoint : rest.head? ≠ some 0x2E) : ∃ ds, fractionPart (t ++ rest) = .ok (ds, rest) := by
  rcases fraction with rfl | ⟨ds, digits, rfl⟩
  · exact ⟨none, fractionPart_none noPoint⟩
  · obtain ⟨d, values, run⟩ := digitRun_digits digits stops
    rw [List.cons_append, fractionPart, run]
    exact ⟨_, rfl⟩

theorem exists_signPart (input : Bytes) :
    ∃ sign, (sign = [] ∨ sign = [0x2B] ∨ sign = [0x2D]) ∧ input = sign ++ (signPart input).2 := by
  unfold signPart
  split
  next => exact ⟨[0x2B], .inr (.inl rfl), rfl⟩
  next => exact ⟨[0x2D], .inr (.inr rfl), rfl⟩
  next => exact ⟨[], .inl rfl, rfl⟩

theorem signPart_append {sign t : Bytes} (signed : sign = [] ∨ sign = [0x2B] ∨ sign = [0x2D])
    (digits : Digits t) (rest : Bytes) : (signPart (sign ++ (t ++ rest))).2 = t ++ rest := by
  rcases signed with rfl | rfl | rfl
  · obtain ⟨b, u, rfl⟩ := List.exists_cons_of_ne_nil digits.1
    have digit := digits.2 b List.mem_cons_self
    unfold signPart
    split
    next plus =>
      obtain ⟨rfl, -⟩ := List.cons.inj plus
      cases digit
    next minus =>
      obtain ⟨rfl, -⟩ := List.cons.inj minus
      cases digit
    next => rfl
  · rfl
  · rfl

theorem ok_of_exponentPart {e : Option Int} (h : exponentPart input = .ok (e, rest)) :
    ∃ t, Exponent t ∧ input = t ++ rest := by
  unfold exponentPart at h
  split at h
  next letter after =>
    split at h
    next known =>
      obtain ⟨sign, signed, split⟩ := exists_signPart after
      cases run : digitRun (signPart after).2 with
      | mk values tail =>
        simp only [run] at h
        cases values with
        | nil => cases h
        | cons d values =>
          obtain ⟨t, digits, follows⟩ := ok_of_digitRun run
          obtain ⟨-, rfl⟩ := Prod.mk.inj (Except.ok.inj h)
          rw [follows] at split
          exact ⟨_, .inr ⟨letter, sign, t, known, signed, digits, rfl⟩, by simp [split]⟩
    next => exact ⟨[], .inl rfl, congrArg Prod.snd (Except.ok.inj h)⟩
  next => exact ⟨[], .inl rfl, congrArg Prod.snd (Except.ok.inj h)⟩

theorem rest_of_exponentPart (h : exponentPart input = .ok (none, rest)) : rest = input := by
  unfold exponentPart at h
  split at h
  next letter after =>
    split at h
    next =>
      rcases run : digitRun (signPart after).2 with ⟨_ | _, _⟩ <;> simp only [run] at h <;> cases h
    next => exact (congrArg Prod.snd (Except.ok.inj h)).symm
  next => exact (congrArg Prod.snd (Except.ok.inj h)).symm

theorem exponentPart_none (noLetter : ∀ c ∈ rest.head?, c ≠ 0x65 ∧ c ≠ 0x45) :
    exponentPart rest = .ok (none, rest) := by
  cases rest with
  | nil => rfl
  | cons c rest => rw [exponentPart, if_neg (by simp [noLetter c rfl])]

theorem exponentPart_append {t : Bytes} (exponent : Exponent t) (stops : NoDigit rest)
    (noLetter : ∀ c ∈ rest.head?, c ≠ 0x65 ∧ c ≠ 0x45) :
    ∃ e, exponentPart (t ++ rest) = .ok (e, rest) := by
  rcases exponent with rfl | ⟨letter, sign, ds, known, signed, digits, rfl⟩
  · exact ⟨none, exponentPart_none noLetter⟩
  · obtain ⟨d, values, run⟩ := digitRun_digits digits stops
    rw [List.cons_append, List.append_assoc, exponentPart, if_pos known]
    simp only [signPart_append signed digits, run]
    exact ⟨_, rfl⟩

theorem ok_of_unsignedNumber {negative : Bool} {n : Number}
    (h : StateT.run (unsignedNumber negative) input = .ok (n, rest)) :
    ∃ t, Unsigned t ∧ input = t ++ rest := by
  obtain ⟨⟨_, _⟩, wholeRead, afterWhole⟩ := ok_of_bind h
  obtain ⟨w, whole, -, rfl⟩ := ok_of_wholePart wholeRead
  obtain ⟨⟨_, _⟩, fractionRead, afterFraction⟩ := ok_of_bind afterWhole
  obtain ⟨f, fraction, rfl⟩ := ok_of_fractionPart fractionRead
  obtain ⟨⟨_, _⟩, exponentRead, afterExponent⟩ := ok_of_bind afterFraction
  obtain ⟨e, exponent, rfl⟩ := ok_of_exponentPart exponentRead
  obtain ⟨-, rfl⟩ := Prod.mk.inj (Except.ok.inj afterExponent)
  exact ⟨_, ⟨w, f, e, whole, fraction, exponent, rfl⟩, by simp⟩

theorem run_unsignedNumber (negative : Bool) {t : Bytes} (number : Unsigned t)
    (ended : Ended rest) :
    ∃ n, StateT.run (unsignedNumber negative) (t ++ rest) = .ok (n, rest) := by
  obtain ⟨w, f, e, whole, fraction, exponent, rfl⟩ := number
  have noDigit : NoDigit (e ++ rest) := fun c first => (exponent.noDigit ended c first).1
  have wholeRead := wholePart_append whole (fraction.noDigit noDigit)
  obtain ⟨fs, fractionRead⟩ := fractionPart_append fraction noDigit fun point =>
    (exponent.noDigit ended _ point).2 rfl
  obtain ⟨es, exponentRead⟩ := exponentPart_append exponent
    (fun c first => (ended.noNumber first).1) (fun c first => (ended.noNumber first).2.2)
  rw [List.append_assoc, List.append_assoc]
  simp only [unsignedNumber, StateT.run, wholeRead, fractionRead, exponentRead, bind, Except.bind]
  exact ⟨_, rfl⟩

theorem ok_of_number {n : Number} (h : StateT.run number input = .ok (n, rest)) :
    ∃ b t, Blank b ∧ Scalar t ∧ input = b ++ (t ++ rest) := by
  obtain ⟨next, between, peeked, read⟩ := ok_of_run_bind h
  obtain ⟨b, blank, rfl, seen⟩ := ok_of_peek peeked
  split at read
  next minus =>
    obtain ⟨t, rfl⟩ : ∃ t, between = 0x2D :: t := List.head?_eq_some_iff.mp (seen.trans minus)
    rw [run_bind_ok (run_skip _ _)] at read
    obtain ⟨u, number, rfl⟩ := ok_of_unsignedNumber read
    exact ⟨b, 0x2D :: u, blank, .negative number, rfl⟩
  next =>
    obtain ⟨u, number, rfl⟩ := ok_of_unsignedNumber read
    exact ⟨b, u, blank, .number number, rfl⟩

theorem run_number_unsigned {t : Bytes} (number : Unsigned t) (rest : Bytes) :
    StateT.run Reader.number (t ++ rest) = StateT.run (unsignedNumber false) (t ++ rest) := by
  obtain ⟨d, u, rfl, digit⟩ := number.head
  have noSign : some d ≠ some 0x2D := by
    rintro ⟨⟩
    cases digit
  rw [List.cons_append, Reader.number, run_bind_ok (run_peek (visible_of_isDigit digit) _),
    if_neg noSign]

theorem run_number {t : Bytes} (number : Unsigned t) (ended : Ended rest) :
    ∃ n, StateT.run Reader.number (t ++ rest) = .ok (n, rest) := by
  rw [run_number_unsigned number]
  exact run_unsignedNumber false number ended

theorem run_number_negative {t : Bytes} (number : Unsigned t) (ended : Ended rest) :
    ∃ n, StateT.run Reader.number (0x2D :: (t ++ rest)) = .ok (n, rest) := by
  obtain ⟨n, read⟩ := run_unsignedNumber true number ended
  rw [Reader.number, run_bind_ok (run_peek rfl _), if_pos rfl, run_bind_ok (run_skip _ _)]
  exact ⟨n, read⟩

theorem hexValue?_isSome {b : UInt8} : (Bytes.hexValue? b).isSome ↔ IsHex b := by
  unfold Bytes.hexValue? IsHex
  split
  next digit => simp [digit]
  next notDigit =>
    split
    next upper => simp [upper]
    next notUpper =>
      split
      next lower => simp [lower]
      next notLower => simp [notDigit, notUpper, notLower]

theorem hexUnit?_isSome {a b c d : UInt8} :
    (hexUnit? a b c d).isSome ↔ ∀ x ∈ [a, b, c, d], IsHex x := by
  simp only [List.forall_mem_cons, ← hexValue?_isSome, hexUnit?]
  rcases Bytes.hexValue? a with _ | _ <;> rcases Bytes.hexValue? b with _ | _ <;>
    rcases Bytes.hexValue? c with _ | _ <;> rcases Bytes.hexValue? d with _ | _ <;> simp

theorem simpleEscape?_isSome {e : UInt8} :
    (simpleEscape? e).isSome ↔ e ∈ [0x22, 0x5C, 0x2F, 0x62, 0x66, 0x6E, 0x72, 0x74] := by
  exact Bytes.forall_byte (P := fun e => (simpleEscape? e).isSome ↔
    e ∈ [0x22, 0x5C, 0x2F, 0x62, 0x66, 0x6E, 0x72, 0x74]) (by decide +kernel) e

theorem ok_of_map {ε α β : Type} {x : Except ε α} {f : α → β} {b : β} (h : x.map f = .ok b) :
    ∃ a, x = .ok a ∧ f a = b := by
  cases x with
  | error e => cases h
  | ok a => exact ⟨a, rfl, Except.ok.inj h⟩

theorem ok_of_pieces {ps : List Piece} (h : pieces input = .ok (ps, rest)) :
    ∃ t, Content t ∧ input = t ++ 0x22 :: rest := by
  fun_induction pieces input generalizing ps with
  | case1 => cases h
  | case2 after =>
    obtain ⟨-, rfl⟩ := Prod.mk.inj (Except.ok.inj h)
    exact ⟨[], .done, rfl⟩
  | case3 => cases h
  | case4 a b c d after u digits ih =>
    obtain ⟨⟨_, _⟩, read, same⟩ := ok_of_map h
    obtain ⟨-, rfl⟩ := Prod.mk.inj same
    obtain ⟨t, content, rfl⟩ := ih read
    exact ⟨_, .unit (hexUnit?_isSome.mp (digits ▸ rfl)) content, rfl⟩
  | case5 => cases h
  | case6 e after _ b known ih =>
    obtain ⟨⟨_, _⟩, read, same⟩ := ok_of_map h
    obtain ⟨-, rfl⟩ := Prod.mk.inj same
    obtain ⟨t, content, rfl⟩ := ih read
    exact ⟨_, .escape (simpleEscape?_isSome.mp (known ▸ rfl)) content, rfl⟩
  | case7 => cases h
  | case8 b after notQuote _ _ plain ih =>
    obtain ⟨⟨_, _⟩, read, same⟩ := ok_of_map h
    obtain ⟨-, rfl⟩ := Prod.mk.inj same
    obtain ⟨t, content, rfl⟩ := ih read
    obtain ⟨visible, notBackslash⟩ := not_or.mp plain
    exact ⟨b :: t, .plain (UInt8.not_lt.mp visible) notQuote notBackslash content, rfl⟩

theorem pieces_plain {b : UInt8} (visible : 0x20 ≤ b) (notQuote : b ≠ 0x22)
    (notBackslash : b ≠ 0x5C) (rest : Bytes) :
    pieces (b :: rest) = (pieces rest).map fun (ps, tail) => (.byte b :: ps, tail) := by
  rw [pieces, if_neg (by simp [UInt8.not_lt.mpr visible, notBackslash])]
  all_goals simp [notQuote, notBackslash]

theorem pieces_simple {e b : UInt8} (escapes : simpleEscape? e = some b) (rest : Bytes) :
    pieces (0x5C :: e :: rest) = (pieces rest).map fun (ps, tail) => (.byte b :: ps, tail) := by
  rw [pieces, escapes]
  rintro _ _ _ _ _ rfl
  cases escapes

theorem pieces_unit {a b c d : UInt8} {u : Nat} (digits : hexUnit? a b c d = some u)
    (rest : Bytes) : pieces (0x5C :: 0x75 :: a :: b :: c :: d :: rest) =
      (pieces rest).map fun (ps, tail) => (.unit u :: ps, tail) := by
  rw [pieces, digits]

inductive Written : Bytes → List Piece → Prop
  | done : Written [] []
  | plain {b : UInt8} {t : Bytes} {ps : List Piece} (visible : 0x20 ≤ b) (notQuote : b ≠ 0x22)
      (notBackslash : b ≠ 0x5C) (others : Written t ps) : Written (b :: t) (.byte b :: ps)
  | escape {e b : UInt8} {t : Bytes} {ps : List Piece} (escapes : simpleEscape? e = some b)
      (others : Written t ps) : Written (0x5C :: e :: t) (.byte b :: ps)
  | unit {a b c d : UInt8} {u : Nat} {t : Bytes} {ps : List Piece}
      (digits : hexUnit? a b c d = some u) (others : Written t ps) :
      Written (0x5C :: 0x75 :: a :: b :: c :: d :: t) (.unit u :: ps)

theorem exists_written {t : Bytes} (content : Content t) :
    ∃ ps, Written t ps ∧ ∀ rest, pieces (t ++ 0x22 :: rest) = .ok (ps, rest) := by
  induction content with
  | done => exact ⟨[], .done, fun rest => rfl⟩
  | @plain b t visible notQuote notBackslash _ ih =>
    obtain ⟨ps, written, read⟩ := ih
    refine ⟨.byte b :: ps, .plain visible notQuote notBackslash written, fun rest => ?_⟩
    rw [List.cons_append, pieces_plain visible notQuote notBackslash, read]
    rfl
  | @escape e t known _ ih =>
    obtain ⟨ps, written, read⟩ := ih
    obtain ⟨b, escapes⟩ := Option.isSome_iff_exists.mp (simpleEscape?_isSome.mpr known)
    refine ⟨.byte b :: ps, .escape escapes written, fun rest => ?_⟩
    rw [List.cons_append, List.cons_append, pieces_simple escapes, read]
    rfl
  | @unit a b c d t digits _ ih =>
    obtain ⟨ps, written, read⟩ := ih
    obtain ⟨u, value⟩ := Option.isSome_iff_exists.mp (hexUnit?_isSome.mpr digits)
    refine ⟨.unit u :: ps, .unit value written, fun rest => ?_⟩
    simp only [List.cons_append]
    rw [pieces_unit value, read]
    rfl

theorem pieces_content {t : Bytes} (content : Content t) :
    ∃ ps, ∀ rest, pieces (t ++ 0x22 :: rest) = .ok (ps, rest) := by
  obtain ⟨ps, -, read⟩ := exists_written content
  exact ⟨ps, read⟩

theorem run_skipString_iff :
    StateT.run skipString input = .ok ((), rest) ↔ ∃ t, Content t ∧ input = t ++ 0x22 :: rest := by
  constructor
  · intro h
    obtain ⟨⟨_, _⟩, read, same⟩ := ok_of_map h
    obtain ⟨-, rfl⟩ := Prod.mk.inj same
    exact ok_of_pieces read
  · rintro ⟨t, content, rfl⟩
    obtain ⟨ps, read⟩ := pieces_content content
    simp [skipString, StateT.run, read, Except.map]

theorem run_skipName_iff :
    StateT.run skipName input = .ok ((), rest) ↔ ∃ l, Label true l ∧ input = l ++ rest := by
  constructor
  · intro h
    obtain ⟨_, _, quote, named⟩ := ok_of_run_bind h
    obtain ⟨b, blank, rfl⟩ := (run_expect_iff rfl).mp quote
    obtain ⟨_, _, name, colon⟩ := ok_of_run_bind named
    obtain ⟨n, content, rfl⟩ := run_skipString_iff.mp name
    obtain ⟨c, blank', rfl⟩ := (run_expect_iff rfl).mp colon
    exact ⟨_, ⟨b, n, c, blank, content, blank', rfl⟩, by simp⟩
  · rintro ⟨l, ⟨b, n, c, blank, content, blank', rfl⟩, rfl⟩
    have quote (t : Bytes) : StateT.run (expect 0x22) (b ++ 0x22 :: t) = .ok ((), t) :=
      (run_expect_iff rfl).mpr ⟨b, blank, rfl⟩
    have name (t : Bytes) : StateT.run skipString (n ++ 0x22 :: t) = .ok ((), t) :=
      run_skipString_iff.mpr ⟨n, content, rfl⟩
    have colon : StateT.run (expect 0x3A) (c ++ 0x3A :: rest) = .ok ((), rest) :=
      (run_expect_iff rfl).mpr ⟨c, blank', rfl⟩
    simp only [List.append_assoc, List.cons_append, List.nil_append]
    rw [skipName, run_bind_ok (quote _), run_bind_ok (name _), colon]

def leadOf (c : UInt8) : Option Lead :=
  if c = 0x6E then some .null
  else if c = 0x74 then some (.bool true)
  else if c = 0x66 then some (.bool false)
  else if c = 0x2D ∨ Bytes.isDigit c then some .number
  else if c = 0x22 then some .string
  else if c = 0x5B then some .array
  else if c = 0x7B then some .object
  else none

theorem visible_of_leadOf {l : Lead} (leads : leadOf c = some l) : isBlank c = false := by
  refine Bool.eq_false_iff.mpr fun blank => ?_
  rcases blank_cases blank with rfl | rfl | rfl | rfl <;> cases leads

theorem first_of_leadOf {l : Lead} (leads : leadOf c = some l) :
    (l = .string → c = 0x22) ∧ (l = .array → c = 0x5B) ∧ (l = .object → c = 0x7B) := by
  unfold leadOf at leads
  split_ifs at leads <;> cases leads <;> simp_all

theorem leadOf_digit (digit : Bytes.isDigit c = true) : leadOf c = some .number := by
  have other {w : UInt8} (word : Bytes.isDigit w = false) : c ≠ w := by
    rintro rfl
    cases digit.symm.trans word
  rw [leadOf, if_neg (other rfl), if_neg (other rfl), if_neg (other rfl), if_pos (.inr digit)]

theorem lead_eq : lead = (do
    match ← peek with
    | none => malformed
    | some c =>
      match leadOf c with
      | none => malformed
      | some l => return l) := by
  unfold lead leadOf
  congr 1
  funext next
  cases next with
  | none => rfl
  | some c =>
    dsimp only
    split_ifs <;> rfl

theorem ok_of_lead {l : Lead} (h : StateT.run lead input = .ok (l, rest)) :
    ∃ b c t, Blank b ∧ rest = c :: t ∧ leadOf c = some l ∧ input = b ++ c :: t := by
  rw [lead_eq] at h
  obtain ⟨next, between, peeked, led⟩ := ok_of_run_bind h
  obtain ⟨b, blank, rfl, seen⟩ := ok_of_peek peeked
  cases next with
  | none => cases led
  | some c =>
    obtain ⟨t, rfl⟩ := List.head?_eq_some_iff.mp seen
    cases leads : leadOf c with
    | none =>
      simp only [leads] at led
      cases led
    | some l' =>
      simp only [leads] at led
      obtain ⟨rfl, rfl⟩ := Prod.mk.inj (Except.ok.inj led)
      exact ⟨b, c, t, blank, rfl, leads, rfl⟩

theorem run_lead_blank {b : Bytes} {l : Lead} (blank : Blank b) (leads : leadOf c = some l)
    (t : Bytes) : StateT.run lead (b ++ c :: t) = .ok (l, c :: t) := by
  rw [lead_eq, run_bind_ok (run_peek_blank blank (visible_of_leadOf leads) t)]
  simp only [leads]
  rfl

theorem run_skipScalar_string (t : Bytes) :
    StateT.run (skipScalar .string) (0x22 :: t) = StateT.run skipString t :=
  run_bind_ok (run_skip _ _)

theorem ok_of_skipScalar {l : Lead} {t : Bytes} (leads : leadOf c = some l)
    (notArray : l ≠ .array) (notObject : l ≠ .object)
    (h : StateT.run (skipScalar l) (c :: t) = .ok ((), rest)) :
    ∃ u, Scalar u ∧ c :: t = u ++ rest := by
  cases l with
  | null => exact ⟨_, .word (.inl rfl), run_literal_iff.mp h⟩
  | bool value =>
    cases value with
    | true => exact ⟨_, .word (.inr (.inl rfl)), run_literal_iff.mp h⟩
    | false => exact ⟨_, .word (.inr (.inr rfl)), run_literal_iff.mp h⟩
  | number =>
    obtain ⟨_, _, read, done⟩ := ok_of_run_bind h
    obtain ⟨-, rfl⟩ := Prod.mk.inj (Except.ok.inj done)
    obtain ⟨b, u, blank, number, split⟩ := ok_of_number read
    cases b with
    | nil => exact ⟨u, number, split⟩
    | cons b bs =>
      obtain ⟨rfl, -⟩ := List.cons.inj split
      cases (visible_of_leadOf leads).symm.trans (blank _ List.mem_cons_self)
  | string =>
    obtain rfl := (first_of_leadOf leads).1 rfl
    rw [run_skipScalar_string] at h
    obtain ⟨u, content, rfl⟩ := run_skipString_iff.mp h
    exact ⟨_, .string content, by simp⟩
  | array => exact absurd rfl notArray
  | object => exact absurd rfl notObject

theorem run_skipScalar {t : Bytes} (scalar : Scalar t) (ended : Ended rest) :
    ∃ c u l, t = c :: u ∧ leadOf c = some l ∧ l ≠ .array ∧ l ≠ .object ∧
      StateT.run (skipScalar l) (t ++ rest) = .ok ((), rest) := by
  cases scalar with
  | word known =>
    rcases known with rfl | rfl | rfl
    · exact ⟨0x6E, _, .null, rfl, rfl, nofun, nofun, run_literal_iff.mpr rfl⟩
    · exact ⟨0x74, _, .bool true, rfl, rfl, nofun, nofun, run_literal_iff.mpr rfl⟩
    · exact ⟨0x66, _, .bool false, rfl, rfl, nofun, nofun, run_literal_iff.mpr rfl⟩
  | number number =>
    obtain ⟨n, read⟩ := run_number number ended
    obtain ⟨d, u, rfl, digit⟩ := number.head
    exact ⟨d, u, .number, rfl, leadOf_digit digit, nofun, nofun, run_bind_ok read⟩
  | @negative t number =>
    obtain ⟨n, read⟩ := run_number_negative number ended
    exact ⟨0x2D, t, .number, rfl, rfl, nofun, nofun, run_bind_ok read⟩
  | @string t content =>
    refine ⟨0x22, _, .string, rfl, rfl, nofun, nofun, ?_⟩
    rw [List.cons_append, run_skipScalar_string]
    exact run_skipString_iff.mpr ⟨t, content, by simp⟩

end Reader

end LedgerBroker.Json
