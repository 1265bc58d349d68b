import LedgerBroker.Proofs.JsonReading
import LedgerBroker.Proofs.PercentText
import LedgerBroker.Proofs.TimestampReading

set_option autoImplicit false

namespace LedgerBroker

namespace Bytes

def IsFollowing (b : UInt8) : Prop := 0x80 ≤ b ∧ b < 0xC0

theorem isFollowing_ofNat {n : Nat} (small : n < 0x100) :
    IsFollowing (.ofNat n) ↔ 0x80 ≤ n ∧ n < 0xC0 := by
  have : ∀ n < 0x100, (0x80 ≤ UInt8.ofNat n ∧ UInt8.ofNat n < 0xC0) ↔ 0x80 ≤ n ∧ n < 0xC0 := by
    decide +kernel
  exact this n small

theorem char_bytes (c : Char) : ∃ b ks, String.utf8EncodeChar c = b :: ks ∧ ¬IsFollowing b ∧
    ∀ k ∈ ks, IsFollowing k := by
  have first {n : Nat} (bounds : n < 0x80 ∨ 0xC0 ≤ n ∧ n < 0x100) : ¬IsFollowing (.ofNat n) := by
    rw [isFollowing_ofNat (by omega)]
    omega
  have follows (n : Nat) : IsFollowing (.ofNat (n % 64 + 0x80)) :=
    (isFollowing_ofNat (by omega)).mpr (by omega)
  simp only [String.utf8EncodeChar]
  split
  case isTrue one => exact ⟨_, [], rfl, first (.inl (by omega)), List.forall_mem_nil _⟩
  split
  case isTrue =>
    exact ⟨_, _, rfl, first (.inr (by omega)), by simp [-UInt8.ofNat_add, follows]⟩
  split
  case isTrue =>
    exact ⟨_, _, rfl, first (.inr (by omega)), by simp [-UInt8.ofNat_add, follows]⟩
  case isFalse =>
    exact ⟨_, _, rfl, first (.inr (by omega)), by simp [-UInt8.ofNat_add, follows]⟩

theorem char_append_inj {c d : Char} {x y : Bytes}
    (same : String.utf8EncodeChar c ++ x = String.utf8EncodeChar d ++ y) : c = d ∧ x = y := by
  have read := congrArg (Text.readUtf8 none) same
  rw [Text.readUtf8_char, Text.readUtf8_char] at read
  obtain ⟨rfl, -⟩ := List.cons.inj read
  exact ⟨rfl, List.append_cancel_left same⟩

theorem char_append_ne_nil {c : Char} {x : Bytes} : String.utf8EncodeChar c ++ x ≠ [] := by
  obtain ⟨b, ks, encoded, -⟩ := char_bytes c
  simp [encoded]

theorem large_of_char {c : Char} {b : UInt8} {ks : Bytes} (high : 0x80 ≤ b)
    (encoded : String.utf8EncodeChar c = b :: ks) : 0x80 ≤ c.toNat := by
  refine Nat.le_of_not_lt fun small => ?_
  obtain ⟨rfl, -⟩ := List.cons.inj ((char_ascii small).symm.trans encoded)
  have value : (UInt8.ofNat c.toNat).toNat = c.toNat :=
    UInt8.toNat_ofNat_of_lt' (Nat.lt_trans small (by decide))
  exact absurd (UInt8.le_iff_toNat_le.mp high) (by rw [value]; exact Nat.not_le_of_lt small)

theorem char_of_low {c : Char} {b : UInt8} {x y : Bytes} (low : b < 0x80)
    (same : String.utf8EncodeChar c ++ x = b :: y) : c = Char.ofNat b.toNat ∧ x = y := by
  rw [← List.singleton_append, ← char_byte low] at same
  exact char_append_inj same

end Bytes

namespace Json

open Reader

namespace Reader

variable {t : Bytes} {ps : List Piece} {cs : List Char}

theorem join_byte {b : UInt8} {bs : Bytes} (joined : join (.byte b :: ps) = some bs) :
    ∃ m, join ps = some m ∧ bs = b :: m := by
  obtain ⟨m, read, rfl⟩ := Option.map_eq_some_iff.mp (joined : (join ps).map (b :: ·) = some bs)
  exact ⟨m, read, rfl⟩

theorem join_unit {u : Nat} {bs : Bytes} (joined : join (.unit u :: ps) = some bs) :
    (∃ m, (u < 0xD800 ∨ 0xE000 ≤ u) ∧ join ps = some m ∧
        bs = String.utf8EncodeChar (Char.ofNat u) ++ m) ∨
      ∃ v others m, ps = .unit v :: others ∧ (0xD800 ≤ u ∧ u < 0xDC00) ∧
        (0xDC00 ≤ v ∧ v < 0xE000) ∧ join others = some m ∧
        bs = String.utf8EncodeChar (Char.ofNat (0x10000 + (u - 0xD800) * 0x400 + (v - 0xDC00))) ++
          m := by
  rw [join.eq_def] at joined
  dsimp only at joined
  split at joined
  next isHigh =>
    split at joined
    next v others =>
      split at joined
      next isLow =>
        obtain ⟨m, read, rfl⟩ := Option.map_eq_some_iff.mp joined
        exact .inr ⟨v, others, m, rfl, isHigh, isLow, read, rfl⟩
      next => cases joined
    next => cases joined
  next notHigh =>
    split at joined
    next => cases joined
    next notLow =>
      obtain ⟨m, read, rfl⟩ := Option.map_eq_some_iff.mp joined
      exact .inl ⟨m, by omega, read, rfl⟩

theorem simpleEscape?_low {e b : UInt8} (escapes : simpleEscape? e = some b) :
    b < 0x80 ∧ (e, Char.ofNat b.toNat) ∈ [((0x22 : UInt8), '"'), (0x5C, '\\'), (0x2F, '/'),
      (0x62, '\x08'), (0x66, '\x0C'), (0x6E, '\n'), (0x72, '\r'), (0x74, '\t')] := by
  have table : ∀ n < 0x100, ∀ b ∈ simpleEscape? (.ofNat n), b < 0x80 ∧
      (UInt8.ofNat n, Char.ofNat b.toNat) ∈ [((0x22 : UInt8), '"'), (0x5C, '\\'), (0x2F, '/'),
        (0x62, '\x08'), (0x66, '\x0C'), (0x6E, '\n'), (0x72, '\r'), (0x74, '\t')] := by
    decide +kernel
  have row := table e.toNat e.toNat_lt
  rw [UInt8.ofNat_toNat] at row
  exact row b escapes

theorem Written.following {ks m : Bytes} (follows : ∀ k ∈ ks, Bytes.IsFollowing k)
    (written : Written t ps) (joined : join ps = some (ks ++ m)) :
    ∃ t' ps', t = ks ++ t' ∧ Written t' ps' ∧ join ps' = some m := by
  induction ks generalizing t ps with
  | nil => exact ⟨t, ps, rfl, written, joined⟩
  | cons k ks ih =>
    have here := follows k List.mem_cons_self
    -- An escape stands for whole characters, and none of them begins with this byte.
    have noChar {c : Char} {x : Bytes} : k :: (ks ++ m) ≠ String.utf8EncodeChar c ++ x := by
      obtain ⟨b, _, encoded, first, -⟩ := Bytes.char_bytes c
      rw [encoded]
      intro same
      exact first ((List.cons.inj same).1 ▸ here)
    cases written with
    | done => cases joined
    | plain visible notQuote notBackslash others =>
      obtain ⟨_, read, same⟩ := join_byte joined
      obtain ⟨rfl, rfl⟩ := List.cons.inj same
      obtain ⟨t', ps', rfl, written, left⟩ :=
        ih (fun x mem => follows x (List.mem_cons_of_mem _ mem)) others read
      exact ⟨t', ps', rfl, written, left⟩
    | escape escapes others =>
      obtain ⟨_, -, same⟩ := join_byte joined
      obtain ⟨rfl, -⟩ := List.cons.inj same
      exact absurd (simpleEscape?_low escapes).1 (UInt8.not_lt.mpr here.1)
    | unit digits others =>
      rcases join_unit joined with ⟨_, -, -, same⟩ | ⟨_, _, _, -, -, -, -, same⟩
      · exact (noChar same).elim
      · exact (noChar same).elim

theorem plain_of_low {b : UInt8} (low : b < 0x80) (visible : 0x20 ≤ b) (notQuote : b ≠ 0x22)
    (notBackslash : b ≠ 0x5C) :
    ' ' ≤ Char.ofNat b.toNat ∧ Char.ofNat b.toNat ≠ '"' ∧ Char.ofNat b.toNat ≠ '\\' := by
  have table : ∀ n < 0x80, 0x20 ≤ n ∧ n ≠ 0x22 ∧ n ≠ 0x5C →
      ' ' ≤ Char.ofNat n ∧ Char.ofNat n ≠ '"' ∧ Char.ofNat n ≠ '\\' := by
    decide +kernel
  exact table b.toNat low ⟨visible, fun same => notQuote (UInt8.toNat_inj.mp same),
    fun same => notBackslash (UInt8.toNat_inj.mp same)⟩

theorem Written.spells (written : Written t ps)
    (joined : join ps = some (cs.flatMap String.utf8EncodeChar)) : Spells t cs := by
  -- The induction is on the characters, for several bytes in a row may be one of them.
  induction cs generalizing t ps with
  | nil =>
    cases written with
    | done => exact .done
    | plain | escape =>
      obtain ⟨_, -, none⟩ := join_byte joined
      cases none
    | unit =>
      rcases join_unit joined with ⟨_, -, -, none⟩ | ⟨_, _, _, -, -, -, -, none⟩
      · exact (Bytes.char_append_ne_nil none.symm).elim
      · exact (Bytes.char_append_ne_nil none.symm).elim
  | cons c cs ih =>
    rw [List.flatMap_cons] at joined
    cases written with
    | done => exact (Bytes.char_append_ne_nil (Option.some.inj joined).symm).elim
    | @plain b t ps visible notQuote notBackslash others =>
      obtain ⟨m, read, same⟩ := join_byte joined
      by_cases low : b < 0x80
      · obtain ⟨rfl, rfl⟩ := Bytes.char_of_low low same
        obtain ⟨visible, notQuote, notBackslash⟩ :=
          plain_of_low low visible notQuote notBackslash
        have spells := Spells.plain visible notQuote notBackslash (ih others read)
        rwa [Bytes.char_byte low] at spells
      · obtain ⟨b', ks, encoded, -, follows⟩ := Bytes.char_bytes c
        rw [encoded, List.cons_append] at same
        obtain ⟨rfl, rfl⟩ := List.cons.inj same
        -- The byte stands as it is, and so do those that belong to the same character.
        obtain ⟨t', ps', rfl, written, left⟩ := others.following follows read
        have large : 0x80 ≤ c.toNat := Bytes.large_of_char (UInt8.not_lt.mp low) encoded
        obtain ⟨visible, notQuote, notBackslash⟩ := plain_of_high large
        have spells := Spells.plain visible notQuote notBackslash (ih written left)
        rwa [encoded] at spells
    | escape escapes others =>
      obtain ⟨m, read, same⟩ := join_byte joined
      obtain ⟨low, known⟩ := simpleEscape?_low escapes
      obtain ⟨rfl, rfl⟩ := Bytes.char_of_low low same
      exact .escape known (ih others read)
    | unit digits others =>
      rcases join_unit joined with
        ⟨m, whole, read, same⟩ | ⟨v, ps', m, rfl, isHigh, isLow, read, same⟩
      · obtain ⟨rfl, rfl⟩ := Bytes.char_append_inj same
        exact .unit digits whole (ih others read)
      · obtain ⟨char, rfl⟩ := Bytes.char_append_inj same
        rw [char]
        cases others with
        | unit low others => exact .pair digits isHigh low isLow (ih others read)

end Reader

theorem quotes_iff_spells {t : Bytes} {s : String} : Quotes t s ↔ Spells t s.toList := by
  refine ⟨fun quotes => ?_, Spells.quotes⟩
  obtain ⟨ps, written, read⟩ := exists_written quotes.content
  obtain ⟨⟨_, _⟩, again, joined⟩ := ok_of_bind (quotes.read [])
  obtain ⟨rfl, -⟩ := Prod.mk.inj (Except.ok.inj ((read []).symm.trans again))
  cases text : (join ps).bind Bytes.text? with
  | none =>
    simp only [text] at joined
    cases joined
  | some s' =>
    simp only [text] at joined
    obtain ⟨rfl, -⟩ := Prod.mk.inj (Except.ok.inj joined)
    obtain ⟨bytes, joined, decoded⟩ := Option.bind_eq_some_iff.mp text
    refine written.spells ?_
    rw [joined, ← Bytes.ofString_of_text decoded, Bytes.ofString_eq_flatMap]

def wholeValue (t : Bytes) : Nat := ofDigits (t.map fun b => (b - 0x30).toNat)

theorem Whole.unsigned {t : Bytes} (whole : Whole t) : Unsigned t :=
  ⟨t, [], [], whole, .inl rfl, .inl rfl, by simp⟩

namespace Reader

variable {α : Type} {input rest : Bytes} {bound : Nat}

theorem run_number_whole {t : Bytes} (whole : Whole t) (ended : Ended rest) :
    StateT.run number (t ++ rest) = .ok (⟨false, true, wholeValue t, 0⟩, rest) := by
  have wholeRead := wholePart_append whole fun c first => (ended.noNumber first).1
  have fractionRead : fractionPart rest = .ok (none, rest) :=
    fractionPart_none fun point => (ended.noNumber point).2.1 rfl
  have exponentRead : exponentPart rest = .ok (none, rest) :=
    exponentPart_none fun c first => (ended.noNumber first).2.2
  rw [run_number_unsigned whole.unsigned]
  simp only [unsignedNumber, StateT.run, wholeRead, fractionRead, exponentRead, bind, Except.bind]
  simp [wholeValue]

theorem whole_of_unsignedNumber {negative : Bool} {n : Number}
    (h : StateT.run (unsignedNumber negative) input = .ok (n, rest)) :
    n.negative = negative ∧
      (n.integral = true → ∃ t, Whole t ∧ n.digits = wholeValue t ∧ input = t ++ rest) := by
  obtain ⟨⟨_, _⟩, wholeRead, afterWhole⟩ := ok_of_bind h
  obtain ⟨t, whole, rfl, rfl⟩ := ok_of_wholePart wholeRead
  obtain ⟨⟨fraction, _⟩, fractionRead, afterFraction⟩ := ok_of_bind afterWhole
  obtain ⟨⟨exponent, _⟩, exponentRead, afterExponent⟩ := ok_of_bind afterFraction
  obtain ⟨rfl, rfl⟩ := Prod.mk.inj (Except.ok.inj afterExponent)
  refine ⟨rfl, fun integral => ?_⟩
  obtain ⟨noFraction, noExponent⟩ := Bool.and_eq_true_iff.mp integral
  obtain rfl := Option.isNone_iff_eq_none.mp noFraction
  obtain rfl := Option.isNone_iff_eq_none.mp noExponent
  obtain rfl := rest_of_fractionPart fractionRead
  obtain rfl := rest_of_exponentPart exponentRead
  exact ⟨t, whole, by simp [wholeValue], rfl⟩

theorem whole_of_number {n : Number} (h : StateT.run number input = .ok (n, rest))
    (integral : n.integral = true) (natural : n.negative = false) :
    ∃ b t, Blank b ∧ Whole t ∧ n.digits = wholeValue t ∧ input = b ++ (t ++ rest) := by
  obtain ⟨next, between, peeked, read⟩ := ok_of_run_bind h
  obtain ⟨b, blank, rfl, seen⟩ := ok_of_peek peeked
  split at read
  next minus =>
    obtain ⟨t, rfl⟩ : ∃ t, between = 0x2D :: t := List.head?_eq_some_iff.mp (seen.trans minus)
    rw [run_bind_ok (run_skip _ _)] at read
    cases natural.symm.trans (whole_of_unsignedNumber read).1
  next =>
    obtain ⟨t, whole, digits, rfl⟩ := (whole_of_unsignedNumber read).2 integral
    exact ⟨b, t, blank, whole, digits, rfl⟩

theorem gives_natBelow {b t : Bytes} (blank : Blank b) (whole : Whole t)
    (small : wholeValue t < bound) : Gives (natBelow bound) (b ++ t) (wholeValue t) := by
  refine ⟨.scalar blank (.number whole.unsigned), fun rest ended => ?_⟩
  have read := run_number_whole whole ended
  obtain ⟨d, u, rfl, digit⟩ := whole.unsigned.head
  rw [List.append_assoc, natBelow, List.cons_append,
    run_bind_ok (run_lead_blank blank (leadOf_digit digit) _)]
  refine (run_bind_ok read).trans ?_
  rw [if_pos (by simp [small])]
  rfl

theorem exact_natBelow (bound : Nat) : Exact (natBelow bound) where
  trims := trims_lead.bind
  sound {input rest value} h := by
    obtain ⟨l, between, led, read⟩ := ok_of_run_bind h
    obtain ⟨b, c, t, blank, rfl, leads, rfl⟩ := ok_of_lead led
    cases l with
    | number =>
      obtain ⟨n, _, number, decided⟩ := ok_of_run_bind read
      split at decided
      next natural =>
        simp only [Bool.and_eq_true, Bool.not_eq_true', decide_eq_true_eq] at natural
        obtain ⟨⟨integral, natural⟩, small⟩ := natural
        obtain ⟨b', u, blank', whole, digits, split⟩ := whole_of_number number integral natural
        obtain ⟨rfl, rfl⟩ := Prod.mk.inj (Except.ok.inj decided)
        rw [digits] at small ⊢
        exact ⟨_, gives_natBelow (blank.append blank') whole small, by simp [split]⟩
      next =>
        -- A number of another kind is refused, with one message or the other.
        split at decided
        · cases decided
        · cases decided
    | _ => exact (refuse_fails _ _ _ read).elim

theorem gives_null {reader : Reader α} {b : Bytes} (blank : Blank b) :
    Gives (optional reader) (b ++ Bytes.ofString "null") none := by
  refine ⟨.scalar blank (.word (.inl rfl)), fun rest _ => ?_⟩
  have leads : StateT.run lead (b ++ (Bytes.ofString "null" ++ rest)) =
      .ok (.null, Bytes.ofString "null" ++ rest) := run_lead_blank (l := .null) blank rfl _
  rw [List.append_assoc, optional, run_bind_ok leads]
  exact run_bind_ok (run_literal_iff.mpr rfl)

theorem gives_blank {reader : Reader α} (trims : Trims reader) {b t : Bytes} {a : α}
    (blank : Blank b) (gives : Gives reader t a) : Gives reader (b ++ t) a := by
  refine ⟨.blank blank gives.value, fun rest ended => ?_⟩
  rw [List.append_assoc, ← trims, List.dropWhile_append_of_pos blank, trims]
  exact gives.takes rest ended

theorem gives_some {reader : Reader α} (trims : Trims reader) {b u : Bytes} {c : UInt8} {l : Lead}
    {a : α} (blank : Blank b) (leads : leadOf c = some l) (notNull : l ≠ .null)
    (gives : Gives reader (b ++ c :: u) a) : Gives (optional reader) (b ++ c :: u) (some a) := by
  refine ⟨gives.value, fun rest ended => ?_⟩
  have taken := takes_behind trims blank (visible_of_leadOf leads) gives ended
  rw [List.append_assoc, optional, List.cons_append, run_bind_ok (run_lead_blank blank leads _)]
  cases l with
  | null => exact absurd rfl notNull
  | _ => exact run_bind_ok taken

theorem exact_optional {reader : Reader α} (exact : Exact reader) : Exact (optional reader) where
  trims := trims_lead.bind
  sound {input rest value} h := by
    obtain ⟨l, between, led, read⟩ := ok_of_run_bind h
    obtain ⟨b, c, t, blank, rfl, leads, rfl⟩ := ok_of_lead led
    by_cases isNull : l = .null
    · subst isNull
      obtain ⟨_, _, word, done⟩ := ok_of_run_bind read
      obtain ⟨rfl, rfl⟩ := Prod.mk.inj (Except.ok.inj done)
      exact ⟨_, gives_null blank, by rw [run_literal_iff.mp word, List.append_assoc]⟩
    · have inner : StateT.run (do return some (← reader)) (c :: t) = .ok (value, rest) := by
        cases l with
        | null => exact absurd rfl isNull
        | _ => exact read
      obtain ⟨a, _, taken, done⟩ := ok_of_run_bind inner
      obtain ⟨rfl, rfl⟩ := Prod.mk.inj (Except.ok.inj done)
      -- What is blank was skipped before, so the value begins with the byte that was looked at.
      obtain ⟨u, gives, split⟩ := exact.sound taken
      obtain ⟨d, u, rfl⟩ := List.exists_cons_of_ne_nil (gives_nonempty gives)
      obtain ⟨rfl, rfl⟩ := List.cons.inj split
      have whole := gives_blank exact.trims blank gives
      exact ⟨_, gives_some exact.trims blank leads isNull whole, by simp⟩

end Reader

theorem digitByte_facts {d : Nat} (small : d < 10) :
    Bytes.isDigit (Numeral.digitByte d) = true ∧ (Numeral.digitByte d - 0x30).toNat = d := by
  have : ∀ d < 10, Bytes.isDigit (Numeral.digitByte d) = true ∧
      (Numeral.digitByte d - 0x30).toNat = d := by decide
  exact this d small

theorem whole_decimalBytes (n : Nat) : Whole (Numeral.decimalBytes n) := by
  refine ⟨⟨by simpa [Numeral.decimalBytes] using Numeral.digits_ne_nil n, fun b mem => ?_⟩, ?_⟩
  · obtain ⟨d, digit, rfl⟩ := List.mem_map.mp mem
    exact (digitByte_facts (Numeral.digits_lt n d digit)).1
  · obtain ⟨d, ds, list⟩ := List.exists_cons_of_ne_nil (Numeral.digits_ne_nil n)
    have value := (digitByte_facts (Numeral.digits_lt n d (list ▸ List.mem_cons_self))).2
    rw [Numeral.decimalBytes, list, List.map_cons, List.head?_cons]
    intro zero
    rw [Option.some.inj zero] at value
    obtain rfl : 0 = d := value
    rcases Numeral.head_digits list with positive | rfl
    · exact absurd positive (Nat.lt_irrefl 0)
    · rfl

theorem wholeValue_decimalBytes (n : Nat) : wholeValue (Numeral.decimalBytes n) = n := by
  have digits : (Numeral.decimalBytes n).map (fun b => (b - 0x30).toNat) = Numeral.digits n := by
    rw [Numeral.decimalBytes, List.map_map]
    refine (List.map_congr_left fun d digit => ?_).trans (List.map_id _)
    exact (digitByte_facts (Numeral.digits_lt n d digit)).2
  rw [wholeValue, digits]
  exact Timestamp.Reading.ofDigits_digits n

namespace Reader.Takes

theorem natBelow {n bound : Nat} (small : n < bound) :
    Takes (natBelow bound) (Numeral.decimalBytes n) n := by
  have stays : wholeValue (Numeral.decimalBytes n) < bound := by rwa [wholeValue_decimalBytes]
  have gives := gives_natBelow .nil (whole_decimalBytes n) stays
  rw [wholeValue_decimalBytes] at gives
  exact gives.takes

theorem strOrNull (value : Option String) :
    Takes (Reader.optional Reader.string) (strOrNull value).write value := by
  cases value with
  | none => exact (gives_null .nil).takes
  | some s => exact .optional s

end Reader.Takes

end Json

end LedgerBroker
