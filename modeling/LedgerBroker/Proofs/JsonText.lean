import LedgerBroker.Json.Record

set_option autoImplicit false

namespace LedgerBroker

namespace Bytes

theorem ofString_eq_flatMap (s : String) : ofString s = s.toList.flatMap String.utf8EncodeChar := by
  have encoded : s.toByteArray = s.toList.utf8Encode := String.utf8Encode_toList.symm
  simp [ofString, encoded, List.utf8Encode, List.data_toByteArray]

theorem ofString_append (s t : String) : ofString (s ++ t) = ofString s ++ ofString t := by
  simp [ofString_eq_flatMap]

theorem ofString_of_text {bytes : Bytes} {s : String} (h : text? bytes = some s) :
    ofString s = bytes := by
  unfold text? String.fromUTF8? at h
  split at h
  next valid =>
    obtain rfl := Option.some.inj h
    rfl
  next => cases h

theorem forall_byte {P : UInt8 → Prop} (all : ∀ n < 256, P (.ofNat n)) (b : UInt8) : P b := by
  have here := all b.toNat b.toNat_lt
  rwa [UInt8.ofNat_toNat] at here

theorem char_ascii {c : Char} (small : c.toNat < 0x80) :
    String.utf8EncodeChar c = [UInt8.ofNat c.toNat] := by
  have bounded : c.val.toNat ≤ 0x7F := Nat.le_of_lt_succ small
  simp only [String.utf8EncodeChar, if_pos bounded]
  rfl

theorem toNat_char {n : Nat} (small : n < 0x80) : (Char.ofNat n).toNat = n := by
  have valid : n.isValidChar := .inl (by omega)
  rw [Char.ofNat, dif_pos valid]
  rfl

theorem char_byte {b : UInt8} (small : b < 0x80) :
    String.utf8EncodeChar (Char.ofNat b.toNat) = [b] := by
  have value : (Char.ofNat b.toNat).toNat = b.toNat := toNat_char small
  rw [char_ascii (value.symm ▸ small), value, UInt8.ofNat_toNat]

theorem char_high {c : Char} (large : 0x80 ≤ c.toNat) :
    ∀ b ∈ String.utf8EncodeChar c, 0x80 ≤ b := by
  have high {n m : Nat} (h : 0x80 ≤ m ∧ n + m < 0x100) : (0x80 : UInt8) ≤ .ofNat (n + m) := by
    have value : (UInt8.ofNat (n + m)).toNat = n + m := UInt8.toNat_ofNat_of_lt' h.2
    rw [UInt8.le_iff_toNat_le, value]
    exact Nat.le_trans h.1 (Nat.le_add_left m n)
  have long : ¬ c.val.toNat ≤ 0x7F := Nat.not_le_of_lt large
  intro b mem
  simp only [String.utf8EncodeChar, if_neg long] at mem
  split at mem
  case isTrue =>
    simp only [List.mem_cons, List.not_mem_nil, or_false] at mem
    rcases mem with rfl | rfl <;> exact high (by omega)
  split at mem
  case isTrue =>
    simp only [List.mem_cons, List.not_mem_nil, or_false] at mem
    rcases mem with rfl | rfl | rfl <;> exact high (by omega)
  case isFalse =>
    simp only [List.mem_cons, List.not_mem_nil, or_false] at mem
    rcases mem with rfl | rfl | rfl | rfl <;> exact high (by omega)

def IsText (b : Bytes) : Prop := ∃ s, ofString s = b

namespace IsText

theorem ofString (s : String) : IsText (Bytes.ofString s) := ⟨s, rfl⟩

theorem nil : IsText [] := ⟨"", rfl⟩

theorem append {b c : Bytes} (h : IsText b) (h' : IsText c) : IsText (b ++ c) := by
  obtain ⟨s, rfl⟩ := h
  obtain ⟨t, rfl⟩ := h'
  exact ⟨s ++ t, ofString_append s t⟩

theorem char (c : Char) : IsText (String.utf8EncodeChar c) :=
  ⟨String.singleton c, by simp [ofString_eq_flatMap]⟩

theorem cons {b : UInt8} {rest : Bytes} (small : b < 0x80) (h : IsText rest) :
    IsText (b :: rest) :=
  append (char_byte small ▸ char _) h

theorem ascii {b : Bytes} (small : ∀ x ∈ b, x < 0x80) : IsText b := by
  induction b with
  | nil => exact nil
  | cons x b ih =>
    exact cons (small x List.mem_cons_self) (ih fun y mem => small y (List.mem_cons_of_mem _ mem))

theorem ofString_text {b : Bytes} (h : IsText b) : Bytes.ofString ((text? b).getD "") = b := by
  obtain ⟨s, rfl⟩ := h
  simp

end IsText

end Bytes

namespace Json

theorem escape_high {b : UInt8} (high : 0x80 ≤ b) : escape b = [b] :=
  Bytes.forall_byte (P := fun b => 0x80 ≤ b → escape b = [b]) (by decide +kernel) b high

theorem escape_ascii {b : UInt8} (low : b < 0x80) : ∀ x ∈ escape b, x < 0x80 := by
  have : ∀ n < 0x80, ∀ x ∈ escape (UInt8.ofNat n), x < 0x80 := by decide +kernel
  simpa using this b.toNat low

theorem escape_char_high {c : Char} (large : 0x80 ≤ c.toNat) :
    (String.utf8EncodeChar c).flatMap escape = String.utf8EncodeChar c := by
  have high := Bytes.char_high large
  revert high
  induction String.utf8EncodeChar c with
  | nil => exact fun _ => rfl
  | cons b rest ih =>
    intro high
    rw [List.flatMap_cons, escape_high (high b List.mem_cons_self),
      ih fun x mem => high x (List.mem_cons_of_mem _ mem), List.singleton_append]

theorem escape_isText (s : String) : Bytes.IsText ((Bytes.ofString s).flatMap escape) := by
  rw [Bytes.ofString_eq_flatMap, List.flatMap_assoc]
  induction s.toList with
  | nil => exact .nil
  | cons c rest ih =>
    rw [List.flatMap_cons]
    refine .append ?_ ih
    by_cases small : c.toNat < 0x80
    · have byte : UInt8.ofNat c.toNat < 0x80 := by
        rw [UInt8.lt_iff_toNat_lt, UInt8.toNat_ofNat_of_lt' (Nat.lt_trans small (by decide))]
        exact small
      rw [Bytes.char_ascii small, List.flatMap_singleton]
      exact .ascii (escape_ascii byte)
    · rw [escape_char_high (Nat.le_of_not_lt small)]
      exact .char c

theorem quote_isText (s : String) : Bytes.IsText (quote s) :=
  .cons (by decide) (.append (escape_isText s) (.cons (by decide) .nil))

theorem decimalBytes_isText (n : Nat) : Bytes.IsText (Numeral.decimalBytes n) := by
  induction n using Numeral.digits.induct with
  | case1 n small =>
    rw [Numeral.decimalBytes, Numeral.digits, if_pos small]
    have : ∀ n < 10, Numeral.digitByte n < 0x80 := by decide
    exact .cons (this n small) .nil
  | case2 n large ih =>
    rw [Numeral.decimalBytes, Numeral.digits, if_neg large, List.map_append]
    have : ∀ n < 10, Numeral.digitByte n < 0x80 := by decide
    exact .append ih (.cons (this _ (Nat.mod_lt _ (by decide))) .nil)

mutual

theorem write_isText : (j : Json) → Bytes.IsText j.write
  | .null | .bool true | .bool false => .ofString _
  | .nat n => decimalBytes_isText n
  | .str s => quote_isText s
  | .arr [] | .obj [] => .cons (by decide) (.cons (by decide) .nil)
  | .arr (item :: rest) => .cons (by decide) (.append (write_isText item) (writeItems_isText rest))
  | .obj ((name, value) :: rest) =>
    .cons (by decide) (.append (quote_isText name)
      (.cons (by decide) (.append (write_isText value) (writeFields_isText rest))))

theorem writeItems_isText : (items : List Json) → Bytes.IsText (writeItems items)
  | [] => .cons (by decide) .nil
  | item :: rest => .cons (by decide) (.append (write_isText item) (writeItems_isText rest))

theorem writeFields_isText : (fields : List (String × Json)) → Bytes.IsText (writeFields fields)
  | [] => .cons (by decide) .nil
  | (name, value) :: rest =>
    .cons (by decide) (.append (quote_isText name)
      (.cons (by decide) (.append (write_isText value) (writeFields_isText rest))))

end

def Ended (rest : Bytes) : Prop :=
  ∀ c ∈ rest.head?, Reader.isBlank c = true ∨ c = 0x2C ∨ c = 0x5D ∨ c = 0x7D

theorem Ended.nil : Ended [] := fun _ first => nomatch first

theorem ended_writeFields (written : List (String × Json)) (rest : Bytes) :
    Ended (writeFields written ++ rest) := by
  cases written with
  | nil => rintro _ ⟨⟩; exact .inr (.inr (.inr rfl))
  | cons field written => rintro _ ⟨⟩; exact .inr (.inl rfl)

namespace Reader

variable {α β ρ : Type}

theorem run_bind_ok {x : Reader α} {f : α → Reader β} {input rest : Bytes} {a : α}
    (h : StateT.run x input = .ok (a, rest)) :
    StateT.run (x >>= f) input = StateT.run (f a) rest := by
  rw [StateT.run_bind, h]
  rfl

theorem run_peek {b : UInt8} (visible : isBlank b = false) (rest : Bytes) :
    StateT.run peek (b :: rest) = .ok (some b, b :: rest) := by
  simp [peek, StateT.run, visible]

theorem run_skip (b : UInt8) (rest : Bytes) : StateT.run skip (b :: rest) = .ok ((), rest) := rfl

theorem run_expect {b : UInt8} (visible : isBlank b = false) (rest : Bytes) :
    StateT.run (expect b) (b :: rest) = .ok ((), rest) := by
  rw [expect, run_bind_ok (run_peek visible rest), if_pos rfl, run_skip]

theorem run_lead_string (rest : Bytes) :
    StateT.run lead (0x22 :: rest) = .ok (.string, 0x22 :: rest) := by
  rw [lead, run_bind_ok (run_peek rfl rest)]
  rfl

theorem run_lead_object (rest : Bytes) :
    StateT.run lead (0x7B :: rest) = .ok (.object, 0x7B :: rest) := by
  rw [lead, run_bind_ok (run_peek rfl rest)]
  rfl

/-- The reader takes what is written off the front of any text, and gives the value. What follows
must not go on with a number, for digits are taken as far as they go. -/
def Takes (reader : Reader α) (written : Bytes) (value : α) : Prop :=
  ∀ rest, Ended rest → StateT.run reader (written ++ rest) = .ok (value, rest)

theorem Takes.run {reader : Reader α} {written : Bytes} {value : α}
    (takes : Takes reader written value) : reader.run written = .ok value := by
  have alone := takes [] .nil
  rw [List.append_nil] at alone
  simp [Reader.run, alone]

theorem pieces_escape (b : UInt8) :
    ∃ piece, (∀ rest, pieces (escape b ++ rest) =
        (pieces rest).map fun (ps, tail) => (piece :: ps, tail)) ∧
      ∀ ps, join (piece :: ps) = (join ps).map (b :: ·) := by
  -- First the bytes that have an escape of their own, then the other control characters.
  simp only [escape]
  split
  case isTrue h => exact ⟨.byte 0x22, fun rest => by simp [pieces, simpleEscape?], by simp [join, h]⟩
  split
  case isTrue h => exact ⟨.byte 0x5C, fun rest => by simp [pieces, simpleEscape?], by simp [join, h]⟩
  split
  case isTrue h => exact ⟨.byte 0x08, fun rest => by simp [pieces, simpleEscape?], by simp [join, h]⟩
  split
  case isTrue h => exact ⟨.byte 0x09, fun rest => by simp [pieces, simpleEscape?], by simp [join, h]⟩
  split
  case isTrue h => exact ⟨.byte 0x0A, fun rest => by simp [pieces, simpleEscape?], by simp [join, h]⟩
  split
  case isTrue h => exact ⟨.byte 0x0C, fun rest => by simp [pieces, simpleEscape?], by simp [join, h]⟩
  split
  case isTrue h => exact ⟨.byte 0x0D, fun rest => by simp [pieces, simpleEscape?], by simp [join, h]⟩
  split
  case isTrue control =>
    -- The four hexadecimal digits of a control character are those of its number.
    have unit : ∀ n < 0x20, hexUnit? 0x30 0x30 (hexDigit (n / 16)) (hexDigit (n % 16)) = some n := by
      decide
    have small : b.toNat < 0x20 := control
    refine ⟨.unit b.toNat, fun rest => ?_, fun ps => ?_⟩
    · simp [pieces, unit _ small]
    · have low : b < 0x80 := UInt8.lt_of_lt_of_le control (by decide)
      rw [join.eq_def]
      dsimp only
      rw [if_neg (by omega), if_neg (by omega), Bytes.char_byte low]
      rfl
  case isFalse notQuote notBackslash _ _ _ _ _ visible =>
    refine ⟨.byte b, fun rest => ?_, by simp [join]⟩
    rw [List.singleton_append, pieces, if_neg (by simp [visible, notBackslash])]
    all_goals simp [notQuote, notBackslash]

theorem pieces_quoted (bytes rest : Bytes) :
    ∃ ps, pieces (bytes.flatMap escape ++ 0x22 :: rest) = .ok (ps, rest) ∧ join ps = some bytes := by
  induction bytes with
  | nil => exact ⟨[], by simp [pieces], rfl⟩
  | cons b bytes ih =>
    obtain ⟨ps, read, joined⟩ := ih
    obtain ⟨piece, step, join_step⟩ := pieces_escape b
    refine ⟨piece :: ps, ?_, by rw [join_step, joined]; rfl⟩
    rw [List.flatMap_cons, List.append_assoc, step, read]
    rfl

theorem run_stringBody (s : String) (rest : Bytes) :
    StateT.run stringBody ((Bytes.ofString s).flatMap escape ++ 0x22 :: rest) = .ok (s, rest) := by
  obtain ⟨ps, read, joined⟩ := pieces_quoted (Bytes.ofString s) rest
  simp [stringBody, StateT.run, read, joined, bind, Except.bind]

theorem quote_append (s : String) (rest : Bytes) :
    quote s ++ rest = 0x22 :: ((Bytes.ofString s).flatMap escape ++ 0x22 :: rest) := by
  simp [quote]

namespace Takes

theorem string (s : String) : Takes string (quote s) s := by
  intro rest _
  rw [quote_append, Reader.string, run_bind_ok (run_lead_string _)]
  exact (run_bind_ok (run_skip _ _)).trans (run_stringBody s rest)

theorem optional (s : String) : Takes (optional Reader.string) (quote s) (some s) := by
  intro rest ended
  have taken := string s rest ended
  rw [quote_append] at taken ⊢
  rw [Reader.optional, run_bind_ok (run_lead_string _)]
  exact run_bind_ok taken

theorem slot {name : String} {get : ρ → Option α} {set : ρ → α → ρ} {reader : Reader α}
    {written : Bytes} {value : α} (takes : Takes reader written value) (draft : ρ) :
    Takes ((Slot.of name get set reader).fill draft) written (set draft value) :=
  fun rest ended => run_bind_ok (takes rest ended)

end Takes

inductive Fills (slots : List (Slot ρ)) : List (String × Json) → ρ → ρ → Prop
  | done (draft : ρ) : Fills slots [] draft draft
  | field {name : String} {value : Json} {rest : List (String × Json)} {slot : Slot ρ}
      {draft filled final : ρ} (found : slots.find? (·.name = name) = some slot)
      (free : slot.isFilled draft = false) (taken : Takes (slot.fill draft) value.write filled)
      (others : Fills slots rest filled final) : Fills slots ((name, value) :: rest) draft final

theorem run_nextName_first (name : String) (rest : Bytes) :
    StateT.run (nextName true) (quote name ++ rest) = .ok (some name, rest) := by
  rw [quote_append, nextName, run_bind_ok (run_peek rfl _)]
  dsimp only
  rw [if_neg (by decide)]
  exact (run_bind_ok (run_expect rfl _)).trans (run_bind_ok (run_stringBody name rest))

theorem run_nextName (name : String) (rest : Bytes) :
    StateT.run (nextName false) (0x2C :: (quote name ++ rest)) = .ok (some name, rest) := by
  rw [quote_append, nextName, run_bind_ok (run_peek rfl _)]
  dsimp only
  rw [if_neg (by decide)]
  refine (run_bind_ok (run_skip _ _)).trans ((run_bind_ok (run_expect rfl _)).trans ?_)
  exact run_bind_ok (run_stringBody name rest)

theorem run_nextName_end (first : Bool) (rest : Bytes) :
    StateT.run (nextName first) (0x7D :: rest) = .ok (none, 0x7D :: rest) := by
  rw [nextName, run_bind_ok (run_peek rfl _)]
  rfl

theorem run_fields_step {slots : List (Slot ρ)} {slot : Slot ρ} {name : String} {value : Json}
    {draft filled : ρ} {first : Bool} {input rest : Bytes}
    (named : StateT.run (nextName first) input = .ok (some name, 0x3A :: (value.write ++ rest)))
    (found : slots.find? (·.name = name) = some slot) (free : slot.isFilled draft = false)
    (taken : Takes (slot.fill draft) value.write filled) (ended : Ended rest) (turns : Nat) :
    StateT.run (fields slots (turns + 1) first draft) input =
      StateT.run (fields slots turns false filled) rest := by
  rw [fields, run_bind_ok named]
  simp only [found, free]
  exact (run_bind_ok (run_expect rfl _)).trans (run_bind_ok (taken rest ended))

theorem run_fields_end (slots : List (Slot ρ)) (first : Bool) (draft : ρ) (turns : Nat)
    (rest : Bytes) : StateT.run (fields slots (turns + 1) first draft) (0x7D :: rest) =
      .ok (draft, 0x7D :: rest) := by
  rw [fields, run_bind_ok (run_nextName_end first rest)]
  rfl

theorem run_fields {slots : List (Slot ρ)} {written : List (String × Json)} {draft final : ρ}
    (fills : Fills slots written draft final) (rest : Bytes) :
    ∀ turns, written.length < turns →
      StateT.run (fields slots turns false draft) (writeFields written ++ rest) =
        .ok (final, 0x7D :: rest) := by
  induction fills with
  | done draft =>
    intro turns enough
    obtain ⟨turns, rfl⟩ := Nat.exists_eq_add_of_lt enough
    exact run_fields_end slots false draft _ rest
  | @field name value others slot draft filled final found free taken fills ih =>
    intro turns enough
    obtain ⟨turns, rfl⟩ : ∃ n, turns = n + 1 := ⟨turns - 1, by omega⟩
    have named : StateT.run (nextName false) (writeFields ((name, value) :: others) ++ rest) =
        .ok (some name, 0x3A :: (value.write ++ (writeFields others ++ rest))) := by
      simpa [writeFields] using
        run_nextName name (0x3A :: (value.write ++ (writeFields others ++ rest)))
    rw [run_fields_step named found free taken (ended_writeFields others rest)]
    exact ih turns (by simpa using enough)

theorem length_le_writeFields (written : List (String × Json)) :
    written.length < (writeFields written).length := by
  induction written with
  | nil => simp [writeFields]
  | cons field rest ih =>
    simp only [writeFields, List.length_cons, List.length_append]
    omega

theorem Takes.record {slots : List (Slot ρ)} {written : List (String × Json)} {blank final : ρ}
    {finish : ρ → Option α} {value : α} (fills : Fills slots written blank final)
    (finished : finish final = some value) :
    Takes (record blank slots finish) (Json.obj written).write value := by
  intro rest _
  -- The first name has no comma in front, so that it is read apart from the others.
  have read : ∀ input, (Json.obj written).write ++ rest = 0x7B :: input →
      StateT.run (fields slots (input.length + 1) true blank) input = .ok (final, 0x7D :: rest) := by
    intro input split
    cases fills with
    | done =>
      obtain rfl : 0x7D :: rest = input := by simpa [write] using split
      exact run_fields_end slots true _ _ rest
    | @field name doc others slot _ filled _ found free taken fills =>
      obtain rfl : quote name ++ 0x3A :: (doc.write ++ (writeFields others ++ rest)) = input := by
        simpa [write] using split
      rw [run_fields_step (run_nextName_first name _) found free taken
        (ended_writeFields others rest)]
      have long := length_le_writeFields others
      refine run_fields fills rest _ ?_
      simp only [List.length_append, List.length_cons]
      omega
  obtain ⟨input, split⟩ : ∃ input, (Json.obj written).write ++ rest = 0x7B :: input := by
    cases written <;> exact ⟨_, rfl⟩
  rw [split, Reader.record, run_bind_ok (run_lead_object input)]
  refine (run_bind_ok (run_skip _ _)).trans ((run_bind_ok rfl).trans ?_)
  rw [run_bind_ok (read input split), finished]
  exact run_bind_ok (run_expect rfl rest)

end Reader

end Json

end LedgerBroker
