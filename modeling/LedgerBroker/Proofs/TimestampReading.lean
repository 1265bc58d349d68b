import LedgerBroker.Time.TimestampText

set_option autoImplicit false

namespace LedgerBroker

namespace Numeral

theorem digits_lt (n : Nat) : ∀ d ∈ digits n, d < 10 := by
  induction n using digits.induct with
  | case1 n small =>
    rw [digits, if_pos small]
    simpa using small
  | case2 n large ih =>
    rw [digits, if_neg large]
    intro d mem
    rcases List.mem_append.mp mem with mem | mem
    · exact ih d mem
    · obtain rfl := List.mem_singleton.mp mem
      omega

theorem digits_ne_nil (n : Nat) : digits n ≠ [] := by
  rw [digits]
  split <;> simp

theorem head_digits_pos {n d : Nat} {ds : List Nat} (positive : 0 < n)
    (list : digits n = d :: ds) : 0 < d := by
  induction n using digits.induct generalizing ds with
  | case1 n small =>
    rw [digits, if_pos small] at list
    exact (List.cons.inj list).1 ▸ positive
  | case2 n large ih =>
    rw [digits, if_neg large] at list
    obtain ⟨e, es, front⟩ := List.exists_cons_of_ne_nil (digits_ne_nil (n / 10))
    obtain rfl : e = d := by rw [front] at list; exact (List.cons.inj list).1
    exact ih (by omega) front

theorem head_digits {n d : Nat} {ds : List Nat} (list : digits n = d :: ds) : 0 < d ∨ ds = [] := by
  rcases Nat.eq_zero_or_pos n with rfl | positive
  · rw [digits, if_pos (by decide)] at list
    exact .inr (List.cons.inj list).2.symm
  · exact .inl (head_digits_pos positive list)

theorem power_succ (base exponent : Nat) :
    power base (exponent + 1) = power base exponent * base := rfl

theorem length_digits_le {width n : Nat} (positive : 0 < width) (fits : n < power 10 width) :
    (digits n).length ≤ width := by
  induction n using digits.induct generalizing width with
  | case1 n small =>
    rw [digits, if_pos small]
    exact positive
  | case2 n large ih =>
    obtain ⟨width, rfl⟩ : ∃ w, width = w + 1 := ⟨width - 1, by omega⟩
    have more : 0 < width := by
      rcases width with _ | width
      · exact absurd (show n < 10 from fits) large
      · exact Nat.succ_pos width
    have shorter := ih more (by rw [power_succ] at fits; omega)
    rw [digits, if_neg large]
    simpa using shorter

theorem digitValue?_digitChar {d : Nat} (small : d < 10) : digitValue? (digitChar d) = some d := by
  have : ∀ d < 10, digitValue? (digitChar d) = some d := by decide
  exact this d small

def paddedDigits (width n : Nat) : List Nat :=
  List.replicate (width - (digits n).length) 0 ++ digits n

theorem padded_eq_map (width n : Nat) : padded width n = (paddedDigits width n).map digitChar := by
  simp [padded, paddedDigits, digitChar]

theorem paddedDigits_lt (width n : Nat) : ∀ d ∈ paddedDigits width n, d < 10 := by
  intro d mem
  rcases List.mem_append.mp mem with mem | mem
  · obtain rfl := List.eq_of_mem_replicate mem
    decide
  · exact digits_lt n d mem

theorem length_paddedDigits {width n : Nat} (positive : 0 < width) (fits : n < power 10 width) :
    (paddedDigits width n).length = width := by
  have := length_digits_le positive fits
  simp only [paddedDigits, List.length_append, List.length_replicate]
  omega

end Numeral

namespace Timestamp

namespace Reading

open Numeral

theorem ofDigits_append (ds es : List Nat) :
    ofDigits (ds ++ es) = es.foldl (fun n d => n * 10 + d) (ofDigits ds) := by
  simp [ofDigits]

theorem ofDigits_zeros (count : Nat) : ofDigits (List.replicate count 0) = 0 := by
  induction count with
  | zero => rfl
  | succ count ih => simpa [ofDigits, List.replicate_succ] using ih

theorem ofDigits_digits (n : Nat) : ofDigits (digits n) = n := by
  induction n using digits.induct with
  | case1 n small =>
    rw [digits, if_pos small]
    simp [ofDigits]
  | case2 n large ih =>
    rw [digits, if_neg large, ofDigits_append, ih]
    simp only [List.foldl_cons, List.foldl_nil]
    omega

theorem ofDigits_paddedDigits (width n : Nat) : ofDigits (paddedDigits width n) = n := by
  rw [paddedDigits, ofDigits_append, ofDigits_zeros]
  exact ofDigits_digits n

def Stops (most : Nat) (rest : List Char) : Prop :=
  most = 0 ∨ ∀ c ∈ rest.head?, digitValue? c = none

theorem digitRun_stops {most : Nat} {rest : List Char} (stops : Stops most rest) :
    digitRun most rest = ([], rest) := by
  rcases most with _ | most
  · rfl
  · cases rest with
    | nil => rfl
    | cons c rest =>
      have noDigit : digitValue? c = none := by simpa [Stops] using stops
      simp [digitRun, noDigit]

theorem digitRun_digits (ds : List Nat) (small : ∀ d ∈ ds, d < 10) {more : Nat} {rest : List Char}
    (stops : Stops more rest) :
    digitRun (ds.length + more) (ds.map digitChar ++ rest) = (ds, rest) := by
  induction ds with
  | nil => simpa using digitRun_stops stops
  | cons d ds ih =>
    have others := ih fun e mem => small e (List.mem_cons_of_mem _ mem)
    rw [List.length_cons, Nat.add_right_comm, List.map_cons, List.cons_append, digitRun,
      digitValue?_digitChar (small d List.mem_cons_self)]
    simp [others]

theorem paddedDigits_eq_cons (width n : Nat) : ∃ d < 10, ∃ ds, paddedDigits width n = d :: ds := by
  cases list : paddedDigits width n with
  | nil =>
    have nonempty : digits n ≠ [] := by
      rw [digits]
      split <;> simp
    simp [paddedDigits, nonempty] at list
  | cons d ds => exact ⟨d, paddedDigits_lt width n d (list ▸ List.mem_cons_self), ds, rfl⟩

theorem trimStart_padded (width n : Nat) (rest : List Char) :
    Text.trimStart (padded width n ++ rest) = padded width n ++ rest := by
  obtain ⟨d, small, ds, list⟩ := paddedDigits_eq_cons width n
  have visible : ∀ d < 10, Text.isBlank (digitChar d) = false := by decide
  simp [padded_eq_map, list, Text.trimStart, visible d small]

theorem digitRun_padded {width n most : Nat} (rest : List Char)
    (enough : (paddedDigits width n).length ≤ most)
    (stops : Stops (most - (paddedDigits width n).length) rest) :
    digitRun most (padded width n ++ rest) = (paddedDigits width n, rest) := by
  have read := digitRun_digits _ (paddedDigits_lt width n) stops
  rwa [Nat.add_sub_cancel' enough, ← padded_eq_map] at read

theorem number_padded {width n : Nat} (positive : 0 < width) (fits : n < power 10 width)
    (rest : List Char) : number width (padded width n ++ rest) = some (n, rest) := by
  have length := length_paddedDigits positive fits
  have run := digitRun_padded (n := n) rest (Nat.le_of_eq length) (.inl (by omega))
  have value := ofDigits_paddedDigits width n
  obtain ⟨d, -, ds, list⟩ := paddedDigits_eq_cons width n
  rw [number, trimStart_padded, run, list]
  rw [list] at value
  simp [value]

theorem signed_padded (width n : Nat) {rest : List Char}
    (stops : ∀ c ∈ rest.head?, digitValue? c = none) (sign : Int) :
    year.signed (padded width n ++ rest) sign = some (sign * n, rest) := by
  have enough : (paddedDigits width n).length ≤ (padded width n ++ rest).length := by
    rw [padded_eq_map, List.length_append, List.length_map]
    omega
  have run := digitRun_padded _ enough (.inr stops)
  have value := ofDigits_paddedDigits width n
  obtain ⟨d, -, ds, list⟩ := paddedDigits_eq_cons width n
  rw [year.signed, run, list]
  rw [list] at value
  simp [value]

theorem fraction_padded {width n : Nat} (positive : 0 < width) (short : width ≤ 9)
    (fits : n < power 10 width) {rest : List Char} (stops : ∀ c ∈ rest.head?, c.isDigit = false) :
    fraction ('.' :: (padded width n ++ rest)) = some (n * power 10 (9 - width), rest) := by
  have length := length_paddedDigits positive fits
  have run := digitRun_padded (n := n) rest (length ▸ short)
    (.inr fun c mem => by simp [digitValue?, stops c mem])
  have value := ofDigits_paddedDigits width n
  have after : rest.dropWhile Char.isDigit = rest := by
    cases rest with
    | nil => rfl
    | cons c rest => simp [stops c rfl]
  obtain ⟨d, -, ds, list⟩ := paddedDigits_eq_cons width n
  rw [fraction, run, list]
  rw [list] at value length
  simp only [value, length, after]

theorem symbol_cons {c : Char} (visible : Text.isBlank c = false) (rest : List Char) :
    symbol c (c :: rest) = some rest := by
  simp [symbol, Text.trimStart, visible]

theorem fraction_written {nano : Nat} (bounded : nano < 1000000000) :
    fraction (writeFraction nano ++ ['Z']) = some (nano, ['Z']) := by
  have stops : ∀ c ∈ ['Z'].head?, c.isDigit = false := by
    rintro _ ⟨⟩
    rfl
  simp only [writeFraction]
  split
  case isTrue zero => simp [fraction, zero]
  split
  case isTrue millis =>
    have whole : nano / 1000000 * 1000000 = nano := by omega
    have short : nano / 1000000 < power 10 3 := show nano / 1000000 < 1000 by omega
    have scale : power 10 6 = 1000000 := rfl
    rw [List.cons_append, fraction_padded (by decide) (by decide) short stops]
    simpa [scale] using whole
  split
  case isTrue micros =>
    have whole : nano / 1000 * 1000 = nano := by omega
    have short : nano / 1000 < power 10 6 := show nano / 1000 < 1000000 by omega
    have scale : power 10 3 = 1000 := rfl
    rw [List.cons_append, fraction_padded (by decide) (by decide) short stops]
    simpa [scale] using whole
  case isFalse =>
    rw [List.cons_append, fraction_padded (by decide) (by decide) bounded stops]
    simp [power]

theorem year_written (y : Int) (rest : List Char) :
    year (writeYear y ++ '-' :: rest) = some (y, '-' :: rest) := by
  have stops : ∀ c ∈ ('-' :: rest).head?, digitValue? c = none := by
    rintro _ ⟨⟩
    rfl
  simp only [writeYear]
  split
  case isTrue four =>
    have value : ((y.toNat : Nat) : Int) = y := Int.toNat_of_nonneg four.1
    obtain ⟨d, small, ds, list⟩ := paddedDigits_eq_cons 4 y.toNat
    -- A bare number must not be taken for one with a sign.
    have unsigned : ∀ d < 10, digitChar d ≠ '-' ∧ digitChar d ≠ '+' := by decide
    have fits : y.toNat < power 10 4 := show y.toNat < 10000 by omega
    have read := number_padded (by decide) fits ('-' :: rest)
    rw [year, trimStart_padded]
    rw [padded_eq_map, list] at read ⊢
    simp only [List.map_cons, List.cons_append] at read ⊢
    split
    case h_1 same => exact absurd (List.cons.inj same).1 (unsigned d small).1
    case h_2 same => exact absurd (List.cons.inj same).1 (unsigned d small).2
    case h_3 => simp [read, value]
  split
  case isTrue negative =>
    have value : (-1 : Int) * (-y).toNat = y := by omega
    have read := signed_padded 4 (-y).toNat stops (-1)
    rw [value] at read
    exact read
  case isFalse =>
    have value : (1 : Int) * y.toNat = y := by omega
    have read := signed_padded 4 y.toNat stops 1
    rw [value] at read
    exact read

end Reading

theorem behind?_zero (t : Timestamp) : t.behind? 0 = some t := by
  have := t.hour_lt
  have := t.minute_lt
  have inDay : ((((t.hour * 60 + t.minute : Nat) : Int) - 0) % 1440).toNat =
      t.hour * 60 + t.minute := by omega
  have hour : (t.hour * 60 + t.minute) / 60 = t.hour := by omega
  have minute : (t.hour * 60 + t.minute) % 60 = t.minute := by omega
  simp only [behind?]
  push_cast at inDay
  rw [if_neg (by omega), if_pos (by omega), inDay, hour, minute]
  exact of?_self t

open Reading in
theorem read_write (t : Timestamp) : read t.write = some t := by
  have two {n : Nat} (small : n < 100) (rest : List Char) :
      number 2 (Numeral.padded 2 n ++ rest) = some (n, rest) :=
    number_padded (by decide) small rest
  have month : t.date.month < 100 := by have := t.date.month_mem; omega
  have day : t.date.day < 100 := by
    have := t.date.day_mem
    have : Calendar.daysIn t.date.year t.date.month ≤ 31 := by
      unfold Calendar.daysIn
      split <;> first | split | skip
      all_goals decide
    omega
  have hour : t.hour < 100 := by have := t.hour_lt; omega
  have minute : t.minute < 100 := by have := t.minute_lt; omega
  have second : t.second < 100 := by have := t.second_le; omega
  have visible : Text.isBlank '-' = false ∧ Text.isBlank ':' = false := by decide
  have zulu : offset (Text.trimStart ['Z']) = some (0, []) := by decide
  simp only [read, write, String.toList_ofList, List.append_assoc, List.cons_append]
  have next {α β : Type} {o : Option α} {a : α} {f : α → Option β} {result : Option β}
      (first : o = some a) (rest : f a = result) : (o >>= f) = result := by
    rw [first]
    exact rest
  refine next (year_written _ _) (next (symbol_cons visible.1 _) (next (two month _) ?_))
  refine next (symbol_cons visible.1 _) (next (two day _) (next rfl (next (two hour _) ?_)))
  refine next (symbol_cons visible.2 _) (next (two minute _) ?_)
  refine next (symbol_cons visible.2 _) (next (two second _) ?_)
  refine next (fraction_written t.nano_lt) (next zulu ?_)
  exact next (Date.of?_self _) (next (of?_self t) t.behind?_zero)

end Timestamp

end LedgerBroker
