import LedgerBroker.Proofs.JsonText
import LedgerBroker.Text.Utf8
import LedgerBroker.Url.Address
import LedgerBroker.Url.PercentEncoding
import Mathlib.Tactic.IntervalCases

set_option autoImplicit false

namespace LedgerBroker

namespace Bytes

theorem toNat_ascii {c : Char} (small : c.toNat < 0x80) : (ascii c).toNat = c.toNat :=
  UInt8.toNat_ofNat_of_lt' (Nat.lt_trans small (by decide))

theorem mem_ofString {c : Char} (small : c.toNat < 0x80) (s : String) :
    ascii c ∈ ofString s ↔ c ∈ s.toList := by
  rw [ofString_eq_flatMap, List.mem_flatMap]
  constructor
  · rintro ⟨d, mem, byte⟩
    rcases Nat.lt_or_ge d.toNat 0x80 with narrow | wide
    · rw [char_ascii narrow, List.mem_singleton, ← UInt8.toNat_inj, toNat_ascii small,
        UInt8.toNat_ofNat_of_lt' (Nat.lt_trans narrow (by decide)), Char.toNat_inj] at byte
      exact byte ▸ mem
    · have high := UInt8.le_iff_toNat_le.1 (char_high wide _ byte)
      rw [toNat_ascii small] at high
      exact absurd high (Nat.not_le_of_lt small)
  · exact fun mem => ⟨c, mem, by rw [char_ascii small]; exact List.mem_singleton_self _⟩

end Bytes

namespace Url

variable {separator : Char → Bool} {cs : List Char}

end Url

namespace PercentEncoding

def IsDigit (x : Char) (n : Nat) : Prop :=
  x.toNat < 0x80 ∧ Bytes.hexValue? (Bytes.ascii x) = some n

/-- The text spells the bytes: each stands in it as an escape, or as one of the plain characters. -/
inductive Spells (plain : Char → Bool) : Bytes → List Char → Prop
  | nil : Spells plain [] []
  | plain {c : Char} {bytes : Bytes} {text : List Char} (ascii : c.toNat < 0x80)
      (isPlain : plain c) (noMark : c ≠ '%') (rest : Spells plain bytes text) :
      Spells plain (Bytes.ascii c :: bytes) (c :: text)
  | escaped {x y : Char} {n m : Nat} {bytes : Bytes} {text : List Char} (high : IsDigit x n)
      (low : IsDigit y m) (rest : Spells plain bytes text) :
      Spells plain ((n * 16 + m).toUInt8 :: bytes) ('%' :: x :: y :: text)

theorem ofList_cons {c : Char} (ascii : c.toNat < 0x80) (text : List Char) :
    Bytes.ofString (String.ofList (c :: text)) =
      Bytes.ascii c :: Bytes.ofString (String.ofList text) := by
  simp only [Bytes.ofString_eq_flatMap, String.toList_ofList, List.flatMap_cons,
    Bytes.char_ascii ascii]
  rfl

theorem ascii_ne_mark {c : Char} (ascii : c.toNat < 0x80) (noMark : c ≠ '%') :
    Bytes.ascii c ≠ 0x25 := by
  intro equal
  refine noMark (Char.toNat_inj.1 ?_)
  rw [← Bytes.toNat_ascii ascii, equal]
  rfl

theorem decode_cons {b : UInt8} (noMark : b ≠ 0x25) (rest : Bytes) :
    decode (b :: rest) = b :: decode rest := by
  rw [decode.eq_def]
  split
  case h_1 equal => cases equal; contradiction
  case h_2 equal => cases equal; rfl
  case h_3 equal => cases equal

theorem decode_escape {a b : UInt8} {x y : Nat} (high : Bytes.hexValue? a = some x)
    (low : Bytes.hexValue? b = some y) (rest : Bytes) :
    decode (0x25 :: a :: b :: rest) = (x * 16 + y).toUInt8 :: decode rest := by
  rw [decode.eq_def]
  simp only [high, low]

theorem mem_decode {b : UInt8} (noMark : b ≠ 0x25) (noDigit : Bytes.hexValue? b = none) {bs : Bytes}
    (mem : b ∈ bs) : b ∈ decode bs := by
  fun_induction decode bs with
  | case1 x y rest n m low high ih =>
    have apart {d : UInt8} {k : Nat} (digit : Bytes.hexValue? d = some k) : b ≠ d := by
      rintro rfl
      exact nomatch noDigit.symm.trans digit
    simp only [List.mem_cons, noMark, apart low, apart high, false_or] at mem
    exact List.mem_cons_of_mem _ (ih mem)
  | case2 x y rest noEscape ih =>
    exact List.mem_cons_of_mem _ (ih ((List.mem_cons.1 mem).resolve_left noMark))
  | case3 other rest noEscape ih =>
    rcases List.mem_cons.1 mem with rfl | mem
    · exact List.mem_cons_self
    · exact List.mem_cons_of_mem _ (ih mem)
  | case4 => exact absurd mem List.not_mem_nil

namespace Spells

variable {plain : Char → Bool} {bytes : Bytes} {text : List Char}

theorem decode (spells : Spells plain bytes text) :
    PercentEncoding.decode (Bytes.ofString (String.ofList text)) = bytes := by
  induction spells with
  | nil =>
    rw [Bytes.ofString_eq_flatMap, String.toList_ofList, List.flatMap_nil, PercentEncoding.decode]
  | plain ascii isPlain noMark rest ih =>
    rw [ofList_cons ascii, decode_cons (ascii_ne_mark ascii noMark), ih]
  | escaped high low rest ih =>
    rw [ofList_cons (by decide), ofList_cons high.1, ofList_cons low.1]
    exact (decode_escape high.2 low.2 _).trans (by rw [ih])

theorem mem (spells : Spells plain bytes text) {c : Char} (mem : c ∈ text) :
    plain c ∨ c = '%' ∨ ∃ n, IsDigit c n := by
  induction spells with
  | nil => exact absurd mem List.not_mem_nil
  | plain ascii isPlain noMark rest ih =>
    rcases List.mem_cons.1 mem with rfl | mem
    · exact .inl isPlain
    · exact ih mem
  | escaped high low rest ih =>
    simp only [List.mem_cons] at mem
    rcases mem with rfl | rfl | rfl | mem
    · exact .inr (.inl rfl)
    · exact .inr (.inr ⟨_, high⟩)
    · exact .inr (.inr ⟨_, low⟩)
    · exact ih mem

theorem not_mem (spells : Spells plain bytes text) {c : Char} (rare : plain c = false)
    (noDigit : Bytes.hexValue? (Bytes.ascii c) = none) (noMark : c ≠ '%') : c ∉ text := by
  intro mem
  rcases spells.mem mem with isPlain | isMark | ⟨n, -, digit⟩
  · exact nomatch rare.symm.trans isPlain
  · exact noMark isMark
  · exact nomatch noDigit.symm.trans digit

theorem mono {plain' : Char → Bool} (weaker : ∀ c, plain c → plain' c)
    (spells : Spells plain bytes text) : Spells plain' bytes text := by
  induction spells with
  | nil => exact .nil
  | plain ascii isPlain noMark _ ih => exact .plain ascii (weaker _ isPlain) noMark ih
  | escaped high low _ ih => exact .escaped high low ih

theorem append {bytes' : Bytes} {text' : List Char} (front : Spells plain bytes text)
    (back : Spells plain bytes' text') : Spells plain (bytes ++ bytes') (text ++ text') := by
  induction front with
  | nil => exact back
  | plain ascii isPlain noMark _ ih => exact .plain ascii isPlain noMark ih
  | escaped high low _ ih => exact .escaped high low ih

end Spells

theorem hexDigit_isDigit {n : Nat} (small : n < 16) : IsDigit (hexDigit n) n := by
  have : ∀ n < 16, (hexDigit n).toNat < 0x80 ∧
      Bytes.hexValue? (Bytes.ascii (hexDigit n)) = some n := by decide
  exact this n small

theorem escape_spells (plain : Char → Bool) (c : Char) :
    Spells plain (String.utf8EncodeChar c) (escape c) := by
  unfold escape
  induction String.utf8EncodeChar c with
  | nil => exact .nil
  | cons b rest ih =>
    -- The two digits of a byte make up the byte.
    have whole : (b.toNat / 16 * 16 + b.toNat % 16).toUInt8 = b := by
      rw [Nat.div_add_mod' b.toNat 16]
      exact UInt8.ofNat_toNat
    have := Spells.escaped (hexDigit_isDigit (show b.toNat / 16 < 16 by have := b.toNat_lt; omega))
      (hexDigit_isDigit (Nat.mod_lt b.toNat (by decide))) ih
    rwa [whole] at this

theorem encode_spells {isEscaped : Char → Bool} (mark : isEscaped '%')
    (wide : ∀ c, 0x80 ≤ c.toNat → isEscaped c) (text : List Char) :
    Spells (!isEscaped ·) (Bytes.ofString (String.ofList text)) (encode isEscaped text) := by
  rw [Bytes.ofString_eq_flatMap, String.toList_ofList]
  induction text with
  | nil => exact .nil
  | cons c rest ih =>
    simp only [encode, List.flatMap_cons] at ih ⊢
    refine .append ?_ ih
    split
    case isTrue => exact escape_spells _ c
    case isFalse kept =>
      have ascii : c.toNat < 0x80 := Nat.lt_of_not_le fun large => kept (wide c large)
      have noMark : c ≠ '%' := by rintro rfl; exact kept mark
      rw [Bytes.char_ascii ascii]
      exact .plain ascii (by simpa using kept) noMark .nil

def isEscapedBut (plain : Char → Bool) (c : Char) : Bool :=
  !plain c || c = '%' || 0x80 ≤ c.toNat

theorem spells_encode (plain : Char → Bool) (text : String) :
    Spells plain (Bytes.ofString text) (encode (isEscapedBut plain) text.toList) := by
  have spells : Spells (!isEscapedBut plain ·) (Bytes.ofString (String.ofList text.toList))
      (encode (isEscapedBut plain) text.toList) :=
    encode_spells (by simp [isEscapedBut]) (by simp +contextual [isEscapedBut]) text.toList
  rw [String.ofList_toList] at spells
  refine spells.mono fun c kept => ?_
  simp only [isEscapedBut, Bool.not_or, Bool.and_eq_true, Bool.not_not] at kept
  exact kept.1.1

end PercentEncoding

namespace Text

theorem dropWhile_none {p : Char → Bool} {cs : List Char} (none_ : ∀ c ∈ cs, p c = false) :
    cs.dropWhile p = cs := by
  cases cs with
  | nil => rfl
  | cons c cs => rw [List.dropWhile_cons_of_neg (by simp [none_ c])]

section Cut

variable {mark : Char} {front : List Char} (apart : mark ∉ front) (back : List Char)

include apart

theorem takeWhile_before : (front ++ mark :: back).takeWhile (· ≠ mark) = front := by
  have other : ∀ c ∈ front, decide (c ≠ mark) = true := fun c mem =>
    decide_eq_true fun equal => apart (equal ▸ mem)
  rw [List.takeWhile_append_of_pos other]
  simp

theorem dropWhile_before : (front ++ mark :: back).dropWhile (· ≠ mark) = mark :: back := by
  have other : ∀ c ∈ front, decide (c ≠ mark) = true := fun c mem =>
    decide_eq_true fun equal => apart (equal ▸ mem)
  rw [List.dropWhile_append_of_pos other]
  simp

end Cut

theorem append_cons_inj {mark : Char} {front front' back back' : List Char} (apart : mark ∉ front)
    (apart' : mark ∉ front') :
    front ++ mark :: back = front' ++ mark :: back' ↔ front = front' ∧ back = back' := by
  refine ⟨fun same => ?_, fun ⟨fronts, backs⟩ => by rw [fronts, backs]⟩
  have fronts := congrArg (List.takeWhile (· ≠ mark)) same
  have backs := congrArg (List.dropWhile (· ≠ mark)) same
  rw [takeWhile_before apart, takeWhile_before apart'] at fronts
  rw [dropWhile_before apart, dropWhile_before apart'] at backs
  exact ⟨fronts, List.tail_eq_of_cons_eq backs⟩

def following (k : Nat) : UInt8 := .ofNat (k + 0x80)

theorem following_toNat {k : Nat} (small : k < 0x40) : (following k).toNat = k + 0x80 :=
  UInt8.toNat_ofNat_of_lt' (Nat.lt_trans (Nat.add_lt_add_right small _) (by decide))

theorem start_two {n : Nat} (bounds : 2 ≤ n ∧ n < 0x20) :
    Partial.start? (.ofNat (n + 0xC0)) = some ⟨n, 1, 0x80, 0xBF⟩ := by
  obtain ⟨least, most⟩ := bounds
  interval_cases n <;> rfl

theorem start_three {n : Nat} (most : n < 0x10) :
    Partial.start? (.ofNat (n + 0xE0)) =
      some ⟨n, 2, if n = 0 then 0xA0 else 0x80, if n = 0xD then 0x9F else 0xBF⟩ := by
  interval_cases n <;> rfl

theorem start_four {n : Nat} (most : n ≤ 4) :
    Partial.start? (.ofNat (n + 0xF0)) =
      some ⟨n, 3, if n = 0 then 0x90 else 0x80, if n = 4 then 0x8F else 0xBF⟩ := by
  interval_cases n <;> rfl

theorem readUtf8_ascii {n : Nat} (small : n < 0x80) (rest : Bytes) :
    readUtf8 none (.ofNat n :: rest) = Char.ofNat n :: readUtf8 none rest := by
  have value : (UInt8.ofNat n).toNat = n :=
    UInt8.toNat_ofNat_of_lt' (Nat.lt_trans small (by decide))
  have low : UInt8.ofNat n < 0x80 := UInt8.lt_iff_toNat_lt.2 (value.trans_lt small)
  rw [readUtf8, if_pos low, value]

theorem readUtf8_start {b : UInt8} {p : Partial} (start : Partial.start? b = some p)
    (rest : Bytes) : readUtf8 none (b :: rest) = readUtf8 (some p) rest := by
  have wide : ¬ b < 0x80 := by
    intro low
    have : ∀ n < 0x80, followers? (.ofNat n) = none := by decide
    have none := this b.toNat (UInt8.lt_iff_toNat_lt.1 low)
    rw [UInt8.ofNat_toNat] at none
    simp [Partial.start?, none] at start
  rw [readUtf8, if_neg wide, start]

theorem readUtf8_more {v k n : Nat} {low high : UInt8} (small : k < 0x40)
    (inRange : low.toNat ≤ k + 0x80 ∧ k + 0x80 ≤ high.toNat) (rest : Bytes) :
    readUtf8 (some ⟨v, n + 2, low, high⟩) (following k :: rest) =
      readUtf8 (some ⟨v * 0x40 + k, n + 1, 0x80, 0xBF⟩) rest := by
  have value := following_toNat small
  have within : low ≤ following k ∧ following k ≤ high := by
    simpa only [UInt8.le_iff_toNat_le, value] using inRange
  have part : (following k).toNat % 0x40 = k := by omega
  rw [readUtf8, if_pos within, if_neg (by simp), part]
  rfl

theorem readUtf8_last {v k : Nat} {low high : UInt8} (small : k < 0x40)
    (inRange : low.toNat ≤ k + 0x80 ∧ k + 0x80 ≤ high.toNat) (rest : Bytes) :
    readUtf8 (some ⟨v, 1, low, high⟩) (following k :: rest) =
      Char.ofNat (v * 0x40 + k) :: readUtf8 none rest := by
  have value := following_toNat small
  have within : low ≤ following k ∧ following k ≤ high := by
    simpa only [UInt8.le_iff_toNat_le, value] using inRange
  have part : (following k).toNat % 0x40 = k := by omega
  rw [readUtf8, if_pos within, if_pos rfl, part]

theorem readUtf8_char (c : Char) (rest : Bytes) :
    readUtf8 none (String.utf8EncodeChar c ++ rest) = c :: readUtf8 none rest := by
  have whole {n : Nat} (value : n = c.val.toNat) : Char.ofNat n = c := value ▸ Char.ofNat_toNat c
  have valid : c.val.toNat < 0xD800 ∨ 0xDFFF < c.val.toNat ∧ c.val.toNat < 0x110000 := c.valid
  simp only [String.utf8EncodeChar]
  -- A byte for each six bits after the first one: of one byte, of two, of three, of four.
  generalize c.val.toNat = v at whole valid
  split
  case isTrue one => exact whole rfl ▸ readUtf8_ascii (Nat.lt_succ_of_le one) rest
  split
  case isTrue two =>
    calc readUtf8 none (.ofNat (v / 64 % 32 + 0xC0) :: following (v % 64) :: rest)
      _ = readUtf8 (some ⟨v / 64 % 32, 1, 0x80, 0xBF⟩) (following (v % 64) :: rest) :=
        readUtf8_start (start_two (by omega)) _
      _ = Char.ofNat (v / 64 % 32 * 0x40 + v % 64) :: readUtf8 none rest :=
        readUtf8_last (by omega) (by simp; omega) _
      _ = c :: readUtf8 none rest := by rw [whole (by omega)]
  split
  case isTrue three =>
    calc readUtf8 none (.ofNat (v / 4096 % 16 + 0xE0) :: following (v / 64 % 64) ::
          following (v % 64) :: rest)
      _ = readUtf8 (some _) (following (v / 64 % 64) :: following (v % 64) :: rest) :=
        readUtf8_start (start_three (by omega)) _
      _ = readUtf8 (some ⟨v / 4096 % 16 * 0x40 + v / 64 % 64, 1, 0x80, 0xBF⟩)
          (following (v % 64) :: rest) :=
        readUtf8_more (by omega) (by constructor <;> split <;> simp <;> omega) _
      _ = Char.ofNat ((v / 4096 % 16 * 0x40 + v / 64 % 64) * 0x40 + v % 64) ::
          readUtf8 none rest := readUtf8_last (by omega) (by simp; omega) _
      _ = c :: readUtf8 none rest := by rw [whole (by omega)]
  case isFalse four =>
    calc readUtf8 none (.ofNat (v / 262144 % 8 + 0xF0) :: following (v / 4096 % 64) ::
          following (v / 64 % 64) :: following (v % 64) :: rest)
      _ = readUtf8 (some _) (following (v / 4096 % 64) :: following (v / 64 % 64) ::
          following (v % 64) :: rest) := readUtf8_start (start_four (by omega)) _
      _ = readUtf8 (some ⟨v / 262144 % 8 * 0x40 + v / 4096 % 64, 2, 0x80, 0xBF⟩)
          (following (v / 64 % 64) :: following (v % 64) :: rest) :=
        readUtf8_more (by omega) (by constructor <;> split <;> simp <;> omega) _
      _ = readUtf8 (some ⟨(v / 262144 % 8 * 0x40 + v / 4096 % 64) * 0x40 + v / 64 % 64, 1,
          0x80, 0xBF⟩) (following (v % 64) :: rest) :=
        readUtf8_more (by omega) (by simp; omega) _
      _ = Char.ofNat (((v / 262144 % 8 * 0x40 + v / 4096 % 64) * 0x40 + v / 64 % 64) * 0x40 +
          v % 64) :: readUtf8 none rest := readUtf8_last (by omega) (by simp; omega) _
      _ = c :: readUtf8 none rest := by rw [whole (by omega)]

theorem readUtf8_ofString (s : String) : readUtf8 none (Bytes.ofString s) = s.toList := by
  rw [Bytes.ofString_eq_flatMap]
  induction s.toList with
  | nil => simp [readUtf8]
  | cons c rest ih => rw [List.flatMap_cons, readUtf8_char, ih]

end Text

end LedgerBroker
