import LedgerBroker.Yaml.Printer
import LedgerBroker.Yaml.Text
import Mathlib.Algebra.Group.Nat.Defs

set_option autoImplicit false

namespace LedgerBroker.Yaml

theorem exists_run (p : Char → Bool) (cs : List Char) :
    ∃ run tail, cs = run ++ tail ∧ (∀ c ∈ run, p c = true) ∧ ∀ c ∈ tail.head?, p c = false := by
  induction cs with
  | nil => exact ⟨[], [], rfl, by simp, by simp⟩
  | cons c cs ih =>
    cases first : p c with
    | false => exact ⟨[], c :: cs, rfl, by simp, by simpa using first⟩
    | true =>
      obtain ⟨run, tail, rfl, all, stop⟩ := ih
      exact ⟨c :: run, tail, rfl, by simpa [first] using all, stop⟩

theorem wordInduction (p : Char → Bool) {motive : List Char → Prop}
    (word : ∀ w, (∀ c ∈ w, p c = false) → motive w)
    (more : ∀ w g rest, (∀ c ∈ w, p c = false) → g ≠ [] → (∀ c ∈ g, p c = true) →
      (∀ c ∈ rest.head?, p c = false) → motive rest → motive (w ++ (g ++ rest)))
    (cs : List Char) : motive cs := by
  induction size : cs.length using Nat.strongRecOn generalizing cs with
  | ind n ih =>
    subst size
    obtain ⟨w, tail, rfl, visible, stop⟩ := exists_run (!p ·) cs
    simp only [Bool.not_eq_true', Bool.not_eq_false'] at visible stop
    obtain ⟨g, rest, rfl, blank, stop'⟩ := exists_run p tail
    rcases g with _ | ⟨b, g⟩
    · rcases rest with _ | ⟨c, rest⟩
      · simpa using word w visible
      · exact absurd (stop c rfl) (by simp [stop' c rfl])
    · refine more w (b :: g) rest visible (by simp) blank stop' (ih _ ?_ rest rfl)
      simp only [List.length_append, List.length_cons]
      omega

@[simp] theorem length_spaces (n : Nat) : (spaces n).length = n := List.length_replicate

theorem exists_spaces {g : List Char} (some_ : g ≠ []) (only : ∀ c ∈ g, c = ' ') :
    ∃ n, g = spaces (n + 1) := by
  refine ⟨g.length - 1, ?_⟩
  rw [Nat.sub_add_cancel (List.length_pos_iff.2 some_)]
  exact List.eq_replicate_iff.2 ⟨rfl, only⟩

namespace Cursor

@[simp] theorem skip_append (w t : List Char) (i l k : Nat) :
    skip ⟨w ++ t, i, l, k⟩ w.length = ⟨t, i + w.length, l, k + w.length⟩ := by
  simp [skip]

@[simp] theorem skip_one (c : Char) (t : List Char) (i l k : Nat) :
    skip ⟨c :: t, i, l, k⟩ 1 = ⟨t, i + 1, l, k + 1⟩ := rfl

def IsOwnBreak (b : Char) : Prop := b = '\n' ∨ b = '\u2028' ∨ b = '\u2029'

theorem IsOwnBreak.isBreak {b : Char} (own : IsOwnBreak b) : isBreak b = true := by
  rcases own with rfl | rfl | rfl <;> rfl

theorem IsOwnBreak.of_printable {b : Char} (printable : isPrintable b = true)
    (broken : Yaml.isBreak b = true) : IsOwnBreak b := by
  simp only [Yaml.isBreak, Bool.or_eq_true, decide_eq_true_eq] at broken
  rcases broken with (((rfl | rfl) | rfl) | rfl) | rfl
  · exact .inl rfl
  · exact nomatch printable
  · exact nomatch printable
  · exact .inr (.inl rfl)
  · exact .inr (.inr rfl)

theorem readBreak_own {b : Char} (own : IsOwnBreak b) (t : List Char) (i l k : Nat) :
    readBreak ⟨b :: t, i, l, k⟩ = ([b], ⟨t, i + 1, l + 1, 0⟩) := by
  rcases own with rfl | rfl | rfl <;> rfl

end Cursor

namespace Gap

variable {t : List Char}

theorem read_stop (stop : ∀ d ∈ t.head?, isSpaceOrBreak d = false) (m turns : Nat) (gap : Gap)
    (i l k : Nat) : read m turns gap ⟨t, i, l, k⟩ = some (gap, ⟨t, i, l, k⟩) := by
  cases turns with
  | zero => rfl
  | succ turns =>
    cases t with
    | nil => rfl
    | cons d after =>
      obtain ⟨noSpace, noBreak⟩ : isSpace d = false ∧ isBreak d = false := by
        simpa [isSpaceOrBreak] using stop d rfl
      simp [read, noSpace, noBreak]

theorem read_spaces {m n turns : Nat} (enough : n ≤ turns)
    (stop : ∀ d ∈ t.head?, isSpaceOrBreak d = false) (before : List Char) (i l k : Nat) :
    read m turns (.spaces before) ⟨Yaml.spaces n ++ t, i, l, k⟩ =
      some (.spaces (before ++ Yaml.spaces n), ⟨t, i + n, l, k + n⟩) := by
  induction n generalizing turns before i k with
  | zero => simpa [Yaml.spaces] using read_stop stop m turns (.spaces before) i l k
  | succ n ih =>
    obtain ⟨turns, rfl⟩ : ∃ m, turns = m + 1 := ⟨turns - 1, by omega⟩
    have blank : isSpace ' ' = true := rfl
    have next := ih (by omega : n ≤ turns) (before ++ [' ']) (i + 1) (k + 1)
    simp only [Yaml.spaces, List.replicate_succ, List.cons_append, read, blank, if_true,
      Cursor.skip_one] at next ⊢
    rw [next]
    simp [Nat.add_assoc, Nat.add_comm 1]

theorem read_indentation {m n turns : Nat} (enough : n ≤ turns)
    (stop : ∀ d ∈ t.head?, isSpaceOrBreak d = false) (first others : List Char) (i l k : Nat) :
    read m turns (.breaks first others) ⟨Yaml.spaces n ++ t, i, l, k⟩ =
      some (.breaks first others, ⟨t, i + n, l, k + n⟩) := by
  induction n generalizing turns i k with
  | zero => simpa [Yaml.spaces] using read_stop stop m turns (.breaks first others) i l k
  | succ n ih =>
    obtain ⟨turns, rfl⟩ : ∃ m, turns = m + 1 := ⟨turns - 1, by omega⟩
    have blank : isSpace ' ' = true := rfl
    have noTab : ¬ (' ' = '\t' ∧ k < m) := by simp
    have next := ih (by omega : n ≤ turns) (i + 1) (k + 1)
    simp only [Yaml.spaces, List.replicate_succ, List.cons_append, read, blank, if_true, noTab,
      if_false, Cursor.skip_one] at next ⊢
    rw [next]
    simp [Nat.add_assoc, Nat.add_comm 1]

theorem read_breaks {m : Nat} {bs : List Char} (own : ∀ b ∈ bs, Cursor.IsOwnBreak b)
    (turns : Nat) (first others : List Char) (i l k : Nat) :
    ∃ i', read m (turns + bs.length) (.breaks first others) ⟨bs ++ t, i, l, k⟩ =
      read m turns (.breaks first (others ++ bs))
        ⟨t, i', l + bs.length, if bs = [] then k else 0⟩ := by
  induction bs generalizing others i l k with
  | nil => exact ⟨i, by simp⟩
  | cons b bs ih =>
    have ownFirst := own b List.mem_cons_self
    have noSpace : isSpace b = false := by rcases ownFirst with rfl | rfl | rfl <;> rfl
    obtain ⟨i', next⟩ := ih (fun d mem => own d (List.mem_cons_of_mem _ mem)) (others ++ [b])
      (i + 1) (l + 1) 0
    refine ⟨i', ?_⟩
    rw [List.length_cons, ← Nat.add_assoc, List.cons_append, read]
    simp only [noSpace, ownFirst.isBreak, Cursor.readBreak_own ownFirst]
    simpa [Nat.add_assoc, Nat.add_comm 1] using next

end Gap

namespace Style

theorem interrupts_after {b d : Char} {front rest : List Char}
    (calm : interrupts b (front ++ d :: rest) = false) : interrupts d rest = false := by
  induction front generalizing b with
  | nil => exact (Bool.or_eq_false_iff.1 calm).2
  | cons c front ih => exact ih (Bool.or_eq_false_iff.1 calm).2

end Style

namespace Plain

open Style (interrupts)

def Stops (t : List Char) : Prop := endsWord t = true ∨ ∃ r, t = ':' :: r ∧ endsWord r = true

theorem word_stops {t : List Char} (stops : Stops t) : word false t = some [] := by
  rcases stops with ends | ⟨r, rfl, ends⟩
  · cases t with
    | nil => rfl
    | cons c t =>
      have blank : isSpaceOrBreak c = true := ends
      simp [word, blank]
  · simp [word, ends]

theorem endsWord_append {x u t : List Char} (near : endsWord u = false → endsWord t = false)
    (open_ : endsWord (x ++ u) = false) : endsWord (x ++ t) = false := by
  cases x with
  | nil => exact near open_
  | cons c x => exact open_

theorem word_append {w u t : List Char} {b : Char} (visible : ∀ c ∈ w, isSpaceOrBreak c = false)
    (calm : interrupts b (w ++ u) = false) (near : endsWord u = false → endsWord t = false)
    (stops : Stops t) : word false (w ++ t) = some w := by
  induction w generalizing b with
  | nil => exact word_stops stops
  | cons c w ih =>
    obtain ⟨⟨noColon, -⟩, calm⟩ : ((c = ':' → endsWord (w ++ u) = false) ∧ _) ∧ _ := by
      simpa [interrupts] using calm
    have goesOn : ¬ (c = ':' ∧ endsWord (w ++ t) = true) := by
      rintro ⟨colon, ends⟩
      rw [endsWord_append near (noColon colon)] at ends
      cases ends
    have rest := ih (fun d mem => visible d (List.mem_cons_of_mem _ mem)) calm
    simp only [List.cons_append, word, visible c List.mem_cons_self, rest]
    simp [goesOn]

structure Calm (cs : List Char) : Prop where
  blank : ∀ c ∈ cs, isSpaceOrBreak c = true → c = ' '
  head : ∀ c ∈ cs.head?, isSpaceOrBreak c = false
  last : cs.getLast? ≠ some ' '
  calm : interrupts ' ' cs = false

variable {s : Setting} {t : List Char}

def Closes (s : Setting) (t : List Char) (crossed : Bool) (after : Nat → Nat → Nat → Cursor) :
    Prop :=
  ∀ (w : List Char) (gap : Gap) (turns i l k : Nat), w ≠ [] → word false (w ++ t) = some w →
    (Cursor.atMarker ⟨w ++ t, i, l, k⟩ || Cursor.peekIs ⟨w ++ t, i, l, k⟩ (· = '#')) = false →
    s.indent < k + w.length →
    words s (turns + 1) gap ⟨w ++ t, i, l, k⟩ =
      some (gap.text ++ w, crossed, after (i + w.length) l (k + w.length))

theorem closes_key (block : s.inFlow = false) (r : List Char) :
    Closes s (':' :: r) false fun i l k => ⟨':' :: r, i, l, k⟩ := by
  intro w gap turns i l k some_ word start _
  have noBlank : ∀ d ∈ (':' :: r).head?, isSpaceOrBreak d = false := by simp [isSpaceOrBreak]; decide
  obtain ⟨c, w, rfl⟩ := List.exists_cons_of_ne_nil some_
  rw [words]
  simp only [start, block, word, Cursor.skip_append, Gap.read_stop noBlank]
  rfl

theorem closes_line (block : s.inFlow = false) {d : Nat} {r : List Char}
    (stop : ∀ c ∈ r.head?, isSpaceOrBreak c = false) (outside : (d : Int) ≤ s.indent) :
    Closes s ('\n' :: (spaces d ++ r)) true fun i l _ => ⟨r, i + 1 + d, l + 1, d⟩ := by
  intro w gap turns i l k some_ word start _
  obtain ⟨c, w, rfl⟩ := List.exists_cons_of_ne_nil some_
  have gone : Gap.read (s.indent + 1).toNat ('\n' :: (spaces d ++ r)).length (.spaces [])
      ⟨'\n' :: (spaces d ++ r), i + (c :: w).length, l, k + (c :: w).length⟩ =
      some (.breaks ['\n'] [], ⟨r, i + (c :: w).length + 1 + d, l + 1, d⟩) := by
    have indented := Gap.read_indentation (m := (s.indent + 1).toNat)
      (show d ≤ (spaces d ++ r).length by simp [spaces]) stop ['\n'] []
      (i + (c :: w).length + 1) (l + 1) 0
    rw [List.length_cons, Gap.read]
    simpa [isSpace, isBreak, Cursor.readBreak_own (.inl rfl)] using indented
  rw [words]
  simp only [start, block, word, Cursor.skip_append, gone]
  have inside : (d : Int) < s.indent + 1 := by omega
  simp [Cursor.peekIs, isSpaceOrBreak, isBreak, inside, Gap.crossesLine]

theorem Calm.noComment {cs : List Char} (calm : Calm cs) (some_ : cs ≠ []) (i l k : Nat) :
    Cursor.peekIs ⟨cs ++ t, i, l, k⟩ (· = '#') = false := by
  obtain ⟨c, cs, rfl⟩ := List.exists_cons_of_ne_nil some_
  have : c ≠ '#' := by
    rintro rfl
    exact nomatch calm.calm
  simp [Cursor.peekIs, this]

theorem Calm.rest {w rest : List Char} {n : Nat} (calm : Calm (w ++ (spaces (n + 1) ++ rest)))
    (stop : ∀ c ∈ rest.head?, isSpaceOrBreak c = false) : rest ≠ [] ∧ Calm rest := by
  have long : spaces (n + 1) = spaces n ++ [' '] := List.replicate_succ'
  have whole : w ++ (spaces (n + 1) ++ rest) = (w ++ spaces n) ++ ' ' :: rest := by simp [long]
  have some_ : rest ≠ [] := by
    rintro rfl
    exact calm.last (by rw [whole]; simp)
  refine ⟨some_, fun c mem => calm.blank c ?_, stop, fun last => calm.last ?_, ?_⟩
  · simp [mem]
  · simp [whole, List.getLast?_append, List.getLast?_cons, last]
  · exact Style.interrupts_after (whole ▸ calm.calm)

theorem words_text {crossed : Bool} {after : Nat → Nat → Nat → Cursor}
    (block : s.inFlow = false) (stops : Stops t) (closes : Closes s t crossed after)
    {cs : List Char} (some_ : cs ≠ []) (calm : Calm cs) :
    ∀ (gap : Gap) (turns i l k : Nat), cs.length ≤ turns → s.indent ≤ k →
      Cursor.atMarker ⟨cs ++ t, i, l, k⟩ = false →
      words s turns gap ⟨cs ++ t, i, l, k⟩ =
        some (gap.text ++ cs, crossed, after (i + cs.length) l (k + cs.length)) := by
  induction cs using wordInduction isSpaceOrBreak with
  | word w visible =>
    intro gap turns i l k enough inside noMarker
    have positive := List.length_pos_iff.2 some_
    obtain ⟨turns, rfl⟩ : ∃ m, turns = m + 1 := ⟨turns - 1, by omega⟩
    have read : Plain.word false (w ++ t) = some w :=
      word_append (u := []) visible (by simpa using calm.calm) (by simp [endsWord]) stops
    refine closes w gap turns i l k some_ read ?_ (by omega)
    rw [noMarker, calm.noComment some_]
    rfl
  | more w g rest visible long blank stop ih =>
    intro gap turns i l k enough inside noMarker
    have first : w ≠ [] := by
      rintro rfl
      obtain ⟨c, g, rfl⟩ := List.exists_cons_of_ne_nil long
      exact nomatch (calm.head c rfl).symm.trans (blank c List.mem_cons_self)
    obtain ⟨n, rfl⟩ := exists_spaces long fun c mem => calm.blank c (by simp [mem]) (blank c mem)
    obtain ⟨more, calmRest⟩ := calm.rest stop
    have positive := List.length_pos_iff.2 first
    simp only [List.length_append, spaces, List.length_replicate] at enough
    obtain ⟨turns, rfl⟩ : ∃ m, turns = m + 1 := ⟨turns - 1, by omega⟩
    have visibleRest : ∀ c ∈ (rest ++ t).head?, isSpaceOrBreak c = false := by
      obtain ⟨c, rest, rfl⟩ := List.exists_cons_of_ne_nil more
      exact stop
    have read : Plain.word false (w ++ (spaces (n + 1) ++ (rest ++ t))) = some w :=
      word_append (u := spaces (n + 1) ++ rest) visible calm.calm id (.inl rfl)
    have gap' := Gap.read_spaces (m := (s.indent + 1).toNat)
      (show n + 1 ≤ (spaces (n + 1) ++ (rest ++ t)).length by simp [spaces]) visibleRest []
      (i + w.length) l (k + w.length)
    have others := ih more calmRest (.spaces (spaces (n + 1))) turns (i + w.length + (n + 1)) l
      (k + w.length + (n + 1)) (by omega) (by omega) (by simp [Cursor.atMarker])
    have start := calm.noComment (t := t) some_ i l k
    simp only [List.append_assoc] at noMarker start ⊢
    rw [words, noMarker, start]
    obtain ⟨c, w, rfl⟩ := List.exists_cons_of_ne_nil first
    simp only [block, read, Cursor.skip_append, gap']
    have goesOn : Cursor.peekIs ⟨spaces (n + 1) ++ (rest ++ t), i + (c :: w).length, l,
        k + (c :: w).length⟩ isSpaceOrBreak = true := rfl
    have deeper : ¬ ((k + (c :: w).length + (n + 1) : Nat) : Int) < s.indent + 1 := by omega
    have spread : (c :: w ++ (spaces (n + 1) ++ rest)).length =
        (c :: w).length + (n + 1) + rest.length := by
      simp only [List.length_append, spaces, List.length_replicate]
      omega
    simp only [goesOn, deeper, List.nil_append, others, spread]
    simp [Gap.text, Nat.add_assoc]

theorem read_text {crossed : Bool} {after : Nat → Nat → Nat → Cursor} (block : s.inFlow = false)
    (stops : Stops t) (closes : Closes s t crossed after) {cs : List Char} (some_ : cs ≠ [])
    (calm : Calm cs) {i l k : Nat} (inside : s.indent ≤ k)
    (noMarker : Cursor.atMarker ⟨cs ++ t, i, l, k⟩ = false) :
    read s ⟨cs ++ t, i, l, k⟩ = some (cs, crossed, after (i + cs.length) l (k + cs.length)) := by
  have words := words_text block stops closes some_ calm (.spaces []) ((cs ++ t).length + 1) i l k
    (by simp; omega) inside noMarker
  simpa [read, Gap.text] using words

end Plain

namespace Quoted

theorem hexDigit?_hexUpper {n : Nat} (small : n < 16) : hexDigit? (hexUpper n) = some n := by
  have : ∀ n < 16, hexDigit? (hexUpper n) = some n := by decide
  exact this n small

theorem hexDigits_read (width n : Nat) (fits : n < 16 ^ width) (m : Nat) :
    (hexDigits width n).foldlM (fun n c => (hexDigit? c).map (n * 16 + ·)) m =
      some (m * 16 ^ width + n) := by
  induction width generalizing n with
  | zero =>
    obtain rfl : n = 0 := by simpa using fits
    simp [hexDigits]
  | succ width ih =>
    have high : n / 16 < 16 ^ width := by rw [Nat.pow_succ] at fits; omega
    have last := hexDigit?_hexUpper (Nat.mod_lt n (by decide : 0 < 16))
    simp only [hexDigits, List.foldlM_append, ih _ high]
    have whole : (m * 16 ^ width + n / 16) * 16 + n % 16 = m * 16 ^ (width + 1) + n := by
      rw [Nat.pow_succ, Nat.add_mul, Nat.mul_assoc, Nat.add_assoc, Nat.div_add_mod']
    simpa [last] using whole

theorem length_hexDigits (width n : Nat) : (hexDigits width n).length = width := by
  induction width generalizing n with
  | zero => rfl
  | succ width ih => simp [hexDigits, ih]

theorem hexChar?_hexDigits {width : Nat} {c : Char} (fits : c.toNat < 16 ^ width) (t : List Char) :
    hexChar? ((hexDigits width c.toNat ++ t).take width) width = some c := by
  have length := length_hexDigits width c.toNat
  have taken : (hexDigits width c.toNat ++ t).take width = hexDigits width c.toNat := by
    rw [List.take_append_of_le_length (Nat.le_of_eq length.symm),
      List.take_of_length_le (Nat.le_of_eq length)]
  have read := hexDigits_read width c.toNat fits 0
  simp only [Nat.zero_mul, Nat.zero_add] at read
  have valid : c.toNat.isValidChar := c.valid
  simp [hexChar?, taken, read, length, valid, Char.ofNat_toNat]

theorem escape?_named {c e : Char} (named : escapeNamed? c = some e) :
    isBreak e = false ∧ ∀ t, escape? (e :: t) = some (c, 1) := by
  have value := Char.ofNat_toNat c
  unfold escapeNamed? at named
  split at named
  case h_16 => cases named
  all_goals
    rename_i number
    rw [number] at value
    subst value
    cases named
    exact ⟨by decide, fun _ => rfl⟩

theorem escapeDouble_cases (c : Char) :
    (escapeDouble c = [c] ∧ isBreak c = false ∧ isSpace c = decide (c = ' ') ∧ c ≠ '"' ∧ c ≠ '\\') ∨
      ∃ d e, escapeDouble c = '\\' :: d :: e ∧ isBreak d = false ∧
        ∀ t, escape? (d :: (e ++ t)) = some (c, e.length + 1) := by
  unfold escapeDouble
  split
  case isTrue plain =>
    obtain ⟨⟨⟨printable, noBreak⟩, noQuote⟩, noMark⟩ :
        ((isPrintable c = true ∧ isBreak c = false) ∧ c ≠ '"') ∧ c ≠ '\\' := by simpa using plain
    have noTab : c ≠ '\t' := by rintro rfl; exact nomatch printable
    exact .inl ⟨rfl, noBreak, by simp [isSpace, noTab], noQuote, noMark⟩
  refine .inr ?_
  split
  case h_1 e named =>
    obtain ⟨noBreak, read⟩ := escape?_named named
    exact ⟨e, [], rfl, noBreak, read⟩
  case h_2 =>
    have bounded : c.toNat < 16 ^ 8 := by
      rcases c.valid with low | ⟨-, high⟩
      · exact Nat.lt_trans low (by decide)
      · exact Nat.lt_trans high (by decide)
    have read {width : Nat} (fits : c.toNat < 16 ^ width) (t : List Char) :
        (hexChar? ((hexDigits width c.toNat ++ t).take width) width).map (·, width + 1) =
          some (c, width + 1) := by rw [hexChar?_hexDigits fits]; rfl
    dsimp only
    split
    case isTrue two =>
      refine ⟨_, _, rfl, rfl, fun t => ?_⟩
      rw [length_hexDigits]
      exact read (Nat.lt_succ_of_le two) t
    split
    case isTrue four =>
      refine ⟨_, _, rfl, rfl, fun t => ?_⟩
      rw [length_hexDigits]
      exact read (Nat.lt_succ_of_le four) t
    case isFalse eight =>
      refine ⟨_, _, rfl, rfl, fun t => ?_⟩
      rw [length_hexDigits]
      exact read bounded t

theorem words_step {double : Bool} {turns : Nat} {c c' c'' last : Cursor} {w cs : List Char}
    {gap : Gap} (noMarker : c.atMarker = false) (more : c.rest ≠ [])
    (read : word double c.rest.length c = some (w, false, c'))
    (unclosed : c'.peekIs (· = if double then '"' else '\'') = false)
    (gone : Gap.read 0 c'.rest.length (.spaces []) c' = some (gap, c''))
    (others : words double turns c'' = some (cs, last)) :
    words double (turns + 1) c = some (w ++ gap.text ++ cs, last) := by
  simp [words, noMarker, more, read, unclosed, gone, others]

theorem words_last {double : Bool} {c : Cursor} {w t : List Char} {i l k : Nat}
    (noMarker : c.atMarker = false) (more : c.rest ≠ [])
    (read : word double c.rest.length c =
      some (w, false, ⟨(if double then '"' else '\'') :: t, i, l, k⟩)) (turns : Nat) :
    words double (turns + 1) c = some (w, ⟨t, i + 1, l, k + 1⟩) := by
  simp [words, noMarker, more, read, Cursor.peekIs]

theorem noMarker_inLine {c : Cursor} (inLine : 0 < c.column) : c.atMarker = false := by
  simp [Cursor.atMarker, Nat.ne_of_gt inLine]

def doubleBody (cs : List Char) : List Char := cs.flatMap escapeDouble

theorem doubleBody_append (cs ds : List Char) :
    doubleBody (cs ++ ds) = doubleBody cs ++ doubleBody ds := List.flatMap_append

theorem doubleBody_spaces (n : Nat) : doubleBody (spaces n) = spaces n := by
  induction n with
  | zero => rfl
  | succ n ih => exact congrArg (' ' :: ·) ih

theorem length_le_doubleBody (cs : List Char) : cs.length ≤ (doubleBody cs).length := by
  induction cs with
  | nil => exact Nat.le_refl _
  | cons c cs ih =>
    have some_ : 1 ≤ (escapeDouble c).length := by
      rcases escapeDouble_cases c with ⟨plain, -⟩ | ⟨d, e, escaped, -⟩
      · simp [plain]
      · simp [escaped]
    simp only [doubleBody, List.flatMap_cons, List.length_append, List.length_cons] at ih ⊢
    omega

theorem word_double {w t : List Char} (visible : ∀ c ∈ w, (decide (c = ' ')) = false)
    (stop : ∀ c ∈ t.head?, c = ' ' ∨ c = '"') {turns : Nat} (enough : w.length ≤ turns)
    (i l k : Nat) : word true turns ⟨doubleBody w ++ t, i, l, k⟩ =
      some (w, false, ⟨t, i + (doubleBody w).length, l, k + (doubleBody w).length⟩) := by
  induction w generalizing turns i k with
  | nil =>
    cases turns with
    | zero => rfl
    | succ turns =>
      cases t with
      | nil => rfl
      | cons c t => rcases stop c rfl with rfl | rfl <;> rfl
  | cons c w ih =>
    obtain ⟨turns, rfl⟩ : ∃ m, turns = m + 1 := ⟨turns - 1, by simp at enough; omega⟩
    have rest (i k : Nat) := ih (fun d mem => visible d (List.mem_cons_of_mem _ mem))
      (Nat.le_of_succ_le_succ enough) i k
    have noSpace := visible c List.mem_cons_self
    simp only [doubleBody, List.flatMap_cons, List.append_assoc, List.length_append] at rest ⊢
    rcases escapeDouble_cases c with ⟨plain, noBreak, space, noQuote, noMark⟩ |
        ⟨d, e, escaped, noBreak, read⟩
    · have shown : isSpaceOrBreak c = false := by simp [isSpaceOrBreak, noBreak, space, noSpace]
      simp [plain, word, shown, noQuote, noMark, rest, Nat.add_assoc]
    · have moved := Cursor.skip_append ('\\' :: d :: e) (w.flatMap escapeDouble ++ t) i l k
      simp only [List.cons_append, List.length_cons] at moved
      have mark : isSpaceOrBreak '\\' = false := rfl
      simp only [escaped, List.cons_append, word, mark, read, moved, rest, List.length_cons]
      simp [noBreak, Nat.add_assoc]

theorem words_double (t : List Char) (cs : List Char) :
    ∀ (turns i l k : Nat), cs.length < turns → 0 < k →
      words true turns ⟨doubleBody cs ++ '"' :: t, i, l, k⟩ =
        some (cs, ⟨t, i + (doubleBody cs).length + 1, l, k + (doubleBody cs).length + 1⟩) := by
  induction cs using wordInduction (fun c => decide (c = ' ')) with
  | word w visible =>
    intro turns i l k enough inLine
    obtain ⟨turns, rfl⟩ : ∃ m, turns = m + 1 := ⟨turns - 1, by omega⟩
    refine words_last (noMarker_inLine inLine) (by simp) (word_double visible (by simp) ?_ i l k) turns
    have := length_le_doubleBody w
    simp only [List.length_append]
    omega
  | more w g rest visible long blank stop ih =>
    intro turns i l k enough inLine
    obtain ⟨turns, rfl⟩ : ∃ m, turns = m + 1 := ⟨turns - 1, by omega⟩
    obtain ⟨n, rfl⟩ := exists_spaces long fun c mem => by simpa using blank c mem
    have visibleRest : ∀ c ∈ (doubleBody rest ++ '"' :: t).head?, isSpaceOrBreak c = false := by
      cases rest with
      | nil => simp [isSpaceOrBreak, doubleBody]; decide
      | cons c rest =>
        have noSpace := stop c rfl
        rcases escapeDouble_cases c with ⟨plain, noBreak, space, -⟩ | ⟨d, e, escaped, -⟩
        · simp [doubleBody, plain, isSpaceOrBreak, noBreak, space, noSpace]
        · simp [doubleBody, escaped, isSpaceOrBreak]; decide
    simp only [List.length_append, spaces, List.length_replicate] at enough
    have enoughWord :
        w.length ≤ (doubleBody w ++ (spaces (n + 1) ++ (doubleBody rest ++ '"' :: t))).length := by
      have := length_le_doubleBody w
      simp only [List.length_append]
      omega
    have enoughGap : n + 1 ≤ (spaces (n + 1) ++ (doubleBody rest ++ '"' :: t)).length := by
      simp [spaces]
    have read := word_double (t := spaces (n + 1) ++ (doubleBody rest ++ '"' :: t)) visible
      (by simp [spaces, List.replicate_succ]) enoughWord i l k
    have gone := Gap.read_spaces (m := 0) enoughGap visibleRest [] (i + (doubleBody w).length) l
      (k + (doubleBody w).length)
    have others := ih turns (i + (doubleBody w).length + (n + 1)) l
      (k + (doubleBody w).length + (n + 1)) (by omega) (by omega)
    have all := words_step (noMarker_inLine inLine) (c := ⟨doubleBody w ++ (spaces (n + 1) ++
      (doubleBody rest ++ '"' :: t)), i, l, k⟩) (by simp) read rfl gone others
    rw [doubleBody_append, doubleBody_append, doubleBody_spaces]
    simpa [Gap.text, spaces, Nat.add_assoc, Nat.add_comm, Nat.add_left_comm] using all

structure Apart (cs : List Char) : Prop where
  blank : ∀ c ∈ cs, isSpaceOrBreak c = true → c = ' ' ∨ Cursor.IsOwnBreak c ∧ c ≠ '\n'
  noBreakAfter : Style.hasPair (· = ' ') isBreak cs = false
  noSpaceAfter : Style.hasPair isBreak (· = ' ') cs = false

theorem hasPair_append_right {p q : Char → Bool} {front rest : List Char}
    (none_ : Style.hasPair p q (front ++ rest) = false) : Style.hasPair p q rest = false := by
  induction front with
  | nil => exact none_
  | cons c front ih =>
    refine ih ?_
    cases front with
    | nil =>
      cases rest with
      | nil => rfl
      | cons d rest => exact (Bool.or_eq_false_iff.1 none_).2
    | cons d front => exact (Bool.or_eq_false_iff.1 none_).2

theorem Apart.append_right {front rest : List Char} (apart : Apart (front ++ rest)) : Apart rest where
  blank c mem := apart.blank c (List.mem_append_right _ mem)
  noBreakAfter := hasPair_append_right apart.noBreakAfter
  noSpaceAfter := hasPair_append_right apart.noSpaceAfter

theorem Apart.gap {g rest : List Char} (apart : Apart (g ++ rest))
    (blank : ∀ c ∈ g, isSpaceOrBreak c = true) :
    (∀ c ∈ g, c = ' ') ∨ ∀ c ∈ g, Cursor.IsOwnBreak c ∧ c ≠ '\n' := by
  induction g with
  | nil => exact .inl (List.forall_mem_nil _)
  | cons c g ih =>
    have tail : Apart (g ++ rest) := (show Apart ([c] ++ (g ++ rest)) from apart).append_right
    have others := ih tail fun d mem => blank d (List.mem_cons_of_mem _ mem)
    have first := apart.blank c (by simp) (blank c List.mem_cons_self)
    rcases g with _ | ⟨d, g⟩
    · simpa using first
    · have noBreak := (Bool.or_eq_false_iff.1 apart.noBreakAfter).1
      have noSpace := (Bool.or_eq_false_iff.1 apart.noSpaceAfter).1
      rcases first with rfl | ⟨own, noFeed⟩
      · rcases others with spaces | breaks
        · exact .inl (by simpa using spaces)
        · simp [(breaks d List.mem_cons_self).1.isBreak] at noBreak
      · rcases others with spaces | breaks
        · simp [own.isBreak, spaces d List.mem_cons_self] at noSpace
        · exact .inr (by simpa using ⟨⟨own, noFeed⟩, by simpa using breaks⟩)

def singleWord (w : List Char) : List Char :=
  w.flatMap fun c => if c = '\'' then ['\'', '\''] else [c]

theorem singleBody_word {indent : Nat} {w : List Char} (visible : ∀ c ∈ w, isBreak c = false)
    (rest : List Char) :
    singleBody indent false (w ++ rest) = singleWord w ++ singleBody indent false rest := by
  induction w with
  | nil => rfl
  | cons c w ih =>
    have others := ih fun d mem => visible d (List.mem_cons_of_mem _ mem)
    have noBreak := visible c List.mem_cons_self
    simp [singleBody, noBreak, others, singleWord]

theorem singleBody_indented {indent : Nat} {rest : List Char}
    (stop : ∀ c ∈ rest.head?, isSpaceOrBreak c = false) :
    singleBody indent true rest = spaces indent ++ singleBody indent false rest := by
  cases rest with
  | nil => simp [singleBody]
  | cons c rest =>
    have noBreak : isBreak c = false := (Bool.or_eq_false_iff.1 (stop c rfl)).2
    simp [singleBody, noBreak]

theorem singleBody_breaks {indent : Nat} {g rest : List Char} (some_ : g ≠ [])
    (breaks : ∀ c ∈ g, isBreak c = true) (after : Bool) :
    singleBody indent after (g ++ rest) = g ++ singleBody indent true rest := by
  induction g generalizing after with
  | nil => exact absurd rfl some_
  | cons c g ih =>
    have first := breaks c List.mem_cons_self
    cases g with
    | nil => simp [singleBody, first]
    | cons d g =>
      have others := ih (by simp) (fun e mem => breaks e (List.mem_cons_of_mem _ mem)) true
      rw [List.cons_append, singleBody, if_pos first, others]
      rfl

theorem length_le_singleWord (w : List Char) : w.length ≤ (singleWord w).length := by
  induction w with
  | nil => exact Nat.le_refl _
  | cons c w ih =>
    simp only [singleWord, List.flatMap_cons, List.length_append, List.length_cons] at ih ⊢
    split <;> simp only [List.length_cons, List.length_nil] <;> omega

def EndsSingle (t : List Char) : Prop :=
  (∃ c r, t = c :: r ∧ isSpaceOrBreak c = true) ∨ ∃ r, t = '\'' :: r ∧ r.head? ≠ some '\''

theorem word_single {w t : List Char} (visible : ∀ c ∈ w, isSpaceOrBreak c = false)
    (ends : EndsSingle t) {turns : Nat} (enough : w.length ≤ turns) (i l k : Nat) :
    word false turns ⟨singleWord w ++ t, i, l, k⟩ =
      some (w, false, ⟨t, i + (singleWord w).length, l, k + (singleWord w).length⟩) := by
  induction w generalizing turns i k with
  | nil =>
    cases turns with
    | zero => rfl
    | succ turns =>
      rcases ends with ⟨c, r, rfl, blank⟩ | ⟨r, rfl, alone⟩
      · simp [singleWord, word, blank]
      · have quote : isSpaceOrBreak '\'' = false := rfl
        simp [singleWord, word, quote, alone]
  | cons c w ih =>
    obtain ⟨turns, rfl⟩ : ∃ m, turns = m + 1 := ⟨turns - 1, by simp at enough; omega⟩
    have rest (i k : Nat) := ih (fun d mem => visible d (List.mem_cons_of_mem _ mem))
      (Nat.le_of_succ_le_succ enough) i k
    have shown := visible c List.mem_cons_self
    simp only [singleWord, List.flatMap_cons, List.append_assoc, List.length_append] at rest ⊢
    by_cases quote : c = '\''
    · subst quote
      have moved := Cursor.skip_append ['\'', '\''] (singleWord w ++ t) i l k
      simp only [List.cons_append, List.nil_append, List.length_cons, List.length_nil, Nat.zero_add,
        Nat.reduceAdd, singleWord] at moved
      simp [word, shown, moved, rest, Nat.add_assoc]
    · simp [word, quote, shown, rest, Nat.add_assoc]

theorem head_singleBody {indent : Nat} {rest : List Char}
    (stop : ∀ c ∈ rest.head?, isSpaceOrBreak c = false) (t : List Char) :
    ∀ c ∈ (singleBody indent false rest ++ '\'' :: t).head?, isSpaceOrBreak c = false := by
  have quote : isSpaceOrBreak '\'' = false := rfl
  cases rest with
  | nil => simpa [singleBody] using quote
  | cons c rest =>
    have shown := stop c rfl
    have noBreak : isBreak c = false := (Bool.or_eq_false_iff.1 shown).2
    by_cases isQuote : c = '\''
    · subst isQuote
      simpa [singleBody, noBreak] using quote
    · simpa [singleBody, noBreak, isQuote] using shown

theorem gap_single {indent : Nat} (indented : 0 < indent) {g rest : List Char} (long : g ≠ [])
    (blank : ∀ c ∈ g, isSpaceOrBreak c = true)
    (stop : ∀ c ∈ rest.head?, isSpaceOrBreak c = false) (apart : Apart (g ++ rest))
    (t : List Char) {u : List Char} (after : u = singleBody indent false rest ++ '\'' :: t) :
    ∃ b G gap, singleBody indent false (g ++ rest) = b :: G ++ singleBody indent false rest ∧
      isSpaceOrBreak b = true ∧ Gap.text gap = g ∧
      ∀ i l k, 0 < k → ∃ i' l' k', l ≤ l' ∧ 0 < k' ∧
        Gap.read 0 (b :: G ++ u).length (.spaces []) ⟨b :: G ++ u, i, l, k⟩ =
          some (gap, ⟨u, i', l', k'⟩) := by
  have visible : ∀ c ∈ u.head?, isSpaceOrBreak c = false := after ▸ head_singleBody stop t
  rcases apart.gap blank with only | breaks
  case inl =>
    obtain ⟨n, rfl⟩ := exists_spaces long only
    have noBreak : ∀ c ∈ spaces (n + 1), isBreak c = false := by
      intro c mem
      rw [only c mem]
      rfl
    have itself : ∀ n, singleWord (spaces n) = spaces n := fun n => by
      induction n with
      | zero => rfl
      | succ n ih => exact congrArg (' ' :: ·) ih
    refine ⟨' ', spaces n, .spaces (spaces (n + 1)), ?_, rfl, rfl, fun i l k inLine => ?_⟩
    · rw [singleBody_word noBreak, itself]
      rfl
    · refine ⟨i + (n + 1), l, k + (n + 1), Nat.le_refl l, by omega, ?_⟩
      have enough : n + 1 ≤ (spaces (n + 1) ++ u).length := by simp [spaces]
      exact Gap.read_spaces enough visible [] i l k
  case inr =>
    obtain ⟨b, bs, rfl⟩ := List.exists_cons_of_ne_nil long
    obtain ⟨⟨own, noFeed⟩, others⟩ := List.forall_mem_cons.1 breaks
    have written : singleBody indent false (b :: bs ++ rest) =
        b :: bs ++ singleBody indent true rest :=
      singleBody_breaks long (fun c mem => (breaks c mem).1.isBreak) false
    rw [singleBody_indented stop] at written
    refine ⟨b, bs ++ spaces indent, .breaks [b] bs, ?_, ?_, ?_, fun i l k _ => ?_⟩
    · simpa using written
    · simp [isSpaceOrBreak, own.isBreak]
    · rcases own with rfl | rfl | rfl
      · exact absurd rfl noFeed
      · rfl
      · rfl
    obtain ⟨i', broken⟩ := Gap.read_breaks (m := 0) (t := spaces indent ++ u)
      (fun c mem => (others c mem).1) (indent + u.length) [b] [] (i + 1) (l + 1) 0
    have spaced := Gap.read_indentation (m := 0) (Nat.le_add_right indent u.length) visible [b] bs
      i' (l + 1 + bs.length) 0
    have noSpace : isSpace b = false := by rcases own with rfl | rfl | rfl <;> rfl
    have size : (bs ++ spaces indent ++ u).length = indent + u.length + bs.length := by
      simp only [List.length_append, spaces, List.length_replicate]
      omega
    refine ⟨i' + indent, l + 1 + bs.length, indent, by omega, indented, ?_⟩
    rw [List.cons_append, List.length_cons, size, Gap.read]
    simp only [noSpace, own.isBreak, Cursor.readBreak_own own, List.append_assoc]
    simpa [broken, ite_self] using spaced

theorem words_single {indent : Nat} (indented : 0 < indent) {t : List Char}
    (closed : t.head? ≠ some '\'') (cs : List Char) :
    Apart cs → ∀ (turns i l k : Nat), cs.length < turns → 0 < k → ∃ i' l' k', l ≤ l' ∧ 0 < k' ∧
      words false turns ⟨singleBody indent false cs ++ '\'' :: t, i, l, k⟩ =
        some (cs, ⟨t, i', l', k'⟩) := by
  induction cs using wordInduction isSpaceOrBreak with
  | word w visible =>
    intro apart turns i l k enough inLine
    obtain ⟨turns, rfl⟩ : ∃ m, turns = m + 1 := ⟨turns - 1, by omega⟩
    have written : singleBody indent false w = singleWord w := by
      have whole : singleBody indent false (w ++ []) = singleWord w ++ singleBody indent false [] :=
        singleBody_word (fun c mem => (Bool.or_eq_false_iff.1 (visible c mem)).2) []
      simpa [singleBody] using whole
    rw [written]
    refine ⟨_, l, _, Nat.le_refl l, Nat.succ_pos _, words_last (noMarker_inLine inLine) (by simp)
      (word_single visible (.inr ⟨t, rfl, closed⟩) ?_ i l k) turns⟩
    have := length_le_singleWord w
    simp only [List.length_append]
    omega
  | more w g rest visible long blank stop ih =>
    intro apart turns i l k enough inLine
    obtain ⟨turns, rfl⟩ : ∃ m, turns = m + 1 := ⟨turns - 1, by omega⟩
    have positive := List.length_pos_iff.2 long
    simp only [List.length_append] at enough
    obtain ⟨b, G, gap, written, blankHead, text, gone⟩ :=
      gap_single indented long blank stop apart.append_right t rfl
    obtain ⟨i', l', k', later, inLine', gone⟩ :=
      gone (i + (singleWord w).length) l (k + (singleWord w).length) (by omega)
    obtain ⟨i'', l'', k'', later', inLine'', others⟩ :=
      ih apart.append_right.append_right turns i' l' k' (by omega) inLine'
    have enoughWord : w.length ≤ (singleWord w ++
        (b :: G ++ (singleBody indent false rest ++ '\'' :: t))).length := by
      have := length_le_singleWord w
      simp only [List.length_append]
      omega
    have read := word_single visible
      (.inl ⟨b, G ++ (singleBody indent false rest ++ '\'' :: t), rfl, blankHead⟩) enoughWord i l k
    have noQuote : b ≠ '\'' := by rintro rfl; exact nomatch blankHead
    have all := words_step (noMarker_inLine inLine) (c := ⟨singleWord w ++
      (b :: G ++ (singleBody indent false rest ++ '\'' :: t)), i, l, k⟩) (by simp) read
      (by simp [Cursor.peekIs, noQuote]) gone others
    refine ⟨i'', l'', k'', Nat.le_trans later later', inLine'', ?_⟩
    rw [singleBody_word (fun c mem => (Bool.or_eq_false_iff.1 (visible c mem)).2), written]
    simpa [text] using all

theorem read_double (cs t : List Char) (i l k : Nat) :
    read true ⟨'"' :: (doubleBody cs ++ '"' :: t), i, l, k⟩ =
      some (cs, ⟨t, i + 1 + (doubleBody cs).length + 1, l, k + 1 + (doubleBody cs).length + 1⟩) := by
  refine words_double t cs _ (i + 1) l (k + 1) ?_ (Nat.succ_pos k)
  have := length_le_doubleBody cs
  simp only [List.length_cons, List.length_append]
  omega

theorem length_le_singleBody (indent : Nat) (after : Bool) (cs : List Char) :
    cs.length ≤ (singleBody indent after cs).length := by
  induction cs generalizing after with
  | nil => exact Nat.zero_le _
  | cons c cs ih =>
    have broken := ih true
    have unbroken := ih false
    rw [singleBody]
    split
    · simpa using broken
    · have some_ : 1 ≤ (if c = '\'' then ['\'', '\''] else [c]).length := by split <;> simp
      simp only [List.length_append, List.length_cons]
      omega

theorem read_single {indent : Nat} (indented : 0 < indent) {cs t : List Char} (apart : Apart cs)
    (closed : t.head? ≠ some '\'') (i l k : Nat) : ∃ i' l' k', l ≤ l' ∧ 0 < k' ∧
      read false ⟨'\'' :: (singleBody indent false cs ++ '\'' :: t), i, l, k⟩ =
        some (cs, ⟨t, i', l', k'⟩) := by
  refine words_single indented closed cs apart _ (i + 1) l (k + 1) ?_ (Nat.succ_pos k)
  have := length_le_singleBody indent false cs
  simp only [List.length_cons, List.length_append]
  omega

end Quoted

namespace Style

theorem isPrintable_of_not_isSpecial {cs : List Char} (ordinary : isSpecial cs = false) :
    ∀ c ∈ cs, isPrintable c = true := by
  simpa using (Bool.or_eq_false_iff.1 ordinary).1

theorem eq_space_of_printable {c : Char} (printable : isPrintable c = true)
    (blank : isSpace c = true) : c = ' ' := by
  have : c = ' ' ∨ c = '\t' := by simpa [isSpace] using blank
  rcases this with rfl | rfl
  · rfl
  · exact nomatch printable

theorem apart_of_allowsSingle {cs : List Char} (noFeed : '\n' ∉ cs)
    (allowed : allowsSingle cs = true) : Quoted.Apart cs := by
  obtain ⟨ordinary, noSpaceAfter⟩ :
      isSpecial cs = false ∧ hasPair isBreak (· = ' ') cs = false := by
    simpa [allowsSingle] using allowed
  refine ⟨fun c mem blank => ?_, (Bool.or_eq_false_iff.1 ordinary).2, noSpaceAfter⟩
  have printable := isPrintable_of_not_isSpecial ordinary c mem
  rcases Bool.or_eq_true_iff.1 blank with space | broken
  · exact .inl (eq_space_of_printable printable space)
  · exact .inr ⟨.of_printable printable broken, fun feed => noFeed (feed ▸ mem)⟩

theorem calm_of_allowsPlain {cs : List Char} (allowed : allowsPlain cs = true) :
    Plain.Calm cs := by
  simp only [allowsPlain, Bool.and_eq_true, Bool.not_eq_true'] at allowed
  obtain ⟨⟨⟨⟨⟨ordinary, noBreak⟩, noEdge⟩, -⟩, noIndicator⟩, calm⟩ := allowed
  have blank : ∀ c ∈ cs, isSpaceOrBreak c = true → c = ' ' := fun c mem blank => by
    have broken : isBreak c = false := by simpa using List.any_eq_false.1 noBreak c mem
    have space : isSpace c = true := by simpa [isSpaceOrBreak, broken] using blank
    exact eq_space_of_printable (isPrintable_of_not_isSpecial ordinary c mem) space
  refine ⟨blank, fun c head => ?_, fun last => ?_, ?_⟩
  · cases shown : isSpaceOrBreak c with
    | false => rfl
    | true =>
      have space := blank c (List.mem_of_mem_head? head) shown
      simp [touchesEdge, Option.mem_def.1 head, space] at noEdge
  · simp [touchesEdge, last] at noEdge
  · cases cs with
    | nil => rfl
    | cons c cs =>
      have noComment : c ≠ '#' := by rintro rfl; exact nomatch noIndicator
      have noColon : (c = ':' && endsWord cs) = false := by
        cases ends : endsWord cs with
        | false => simp
        | true =>
          have : c ≠ ':' := by rintro rfl; simp [startsAsIndicator, ends] at noIndicator
          simp [this]
      have calm : interrupts c cs = false := by simpa using calm
      simp only [interrupts, noColon, noComment, calm]
      simp

end Style

end LedgerBroker.Yaml
