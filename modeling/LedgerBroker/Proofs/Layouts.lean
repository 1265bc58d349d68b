import LedgerBroker.Proofs.LexerTurns
import LedgerBroker.Yaml.Node
import LedgerBroker.Yaml.Printer

set_option autoImplicit false

namespace LedgerBroker.Yaml

def Style.writing : Style → Writing
  | .plain => .plain
  | .single | .double => .quoted
  | .literal => .literal

def Style.fits : Style → String → Bool
  | .plain, s => s ≠ "" && allowsPlain s.toList
  | .single, s => !s.toList.contains '\n' && allowsSingle s.toList
  | .double, _ => true
  | .literal, s => s ≠ "" && allowsLiteral s.toList

def isName (k : String) : Bool := Style.of k = .plain && k.utf8ByteSize ≤ 128

def isWord (w : String) : Bool := w ≠ "" && w.toList.all Char.isAlphanum

inductive Layout
  | scalar (style : Style) (text : String)
  | words (ws : List String)
  | noEntries
  | items (first : Layout) (others : List Layout)
  | entries (key : String) (value : Layout) (others : List (String × Layout))

namespace Layout

def scalarText (indent : Nat) (s : String) : Style → List Char
  | .plain => s.toList ++ ['\n']
  | .single => '\'' :: (singleBody (indent + 2) false s.toList ++ ['\'', '\n'])
  | .double => '"' :: (Quoted.doubleBody s.toList ++ ['"', '\n'])
  | .literal =>
    '|' :: (literalHints s.toList ++ '\n' :: (literalBody (indent + 2) true s.toList ++
      literalEnd s.toList))

def otherWords : List String → List Char
  | [] => [']', '\n']
  | w :: ws => ',' :: ' ' :: (w.toList ++ otherWords ws)

def wordsText : List String → List Char
  | [] => [']', '\n']
  | w :: ws => w.toList ++ otherWords ws

def gap (indent : Nat) (place : Place) : Layout → List Char
  | scalar .. | words _ | noEntries => [' ']
  | items .. => opening place (place.dashColumn indent)
  | entries .. => opening place (indent + 2)

mutual

def text (indent : Nat) (place : Place) : Layout → List Char
  | scalar style s => scalarText indent s style
  | words ws => '[' :: wordsText ws
  | noEntries => ['\x7b', '\x7d', '\n']
  | items first others =>
    let column := place.dashColumn indent
    '-' :: (first.gap column .dash ++ (text column .dash first ++ itemsText column others))
  | entries key value others =>
    key.toList ++ ':' :: (value.gap (indent + 2) .key ++ (text (indent + 2) .key value ++
      entriesText (indent + 2) others))

def itemsText (column : Nat) : List Layout → List Char
  | [] => []
  | item :: rest =>
    spaces column ++ '-' :: (item.gap column .dash ++ (text column .dash item ++
      itemsText column rest))

def entriesText (column : Nat) : List (String × Layout) → List Char
  | [] => []
  | entry :: rest => spaces column ++ (entryText column entry ++ entriesText column rest)

def entryText (column : Nat) : String × Layout → List Char
  | (key, value) => key.toList ++ ':' :: (value.gap column .key ++ text column .key value)

end

def wordTokens : List String → List Token
  | [] => [.flowSequenceEnd]
  | w :: ws => .flowEntry :: .scalar w .plain :: wordTokens ws

mutual

def tokens (place : Place) : Layout → List Token
  | scalar style s => [.scalar s style.writing]
  | words [] => [.flowSequence, .flowSequenceEnd]
  | words (w :: ws) => .flowSequence :: .scalar w .plain :: wordTokens ws
  | noEntries => [.flowMapping, .flowMappingEnd]
  | items first others =>
    (if place.isDash then [.blockSequence] else []) ++
      .blockEntry :: (tokens .dash first ++ itemTokens others) ++
      (if place.isDash then [.blockEnd] else [])
  | entries key value others =>
    .blockMapping :: .key :: .scalar key .plain :: .value ::
      (tokens .key value ++ (entryTokens others ++ [.blockEnd]))

def itemTokens : List Layout → List Token
  | [] => []
  | item :: rest => .blockEntry :: (tokens .dash item ++ itemTokens rest)

def entryTokens : List (String × Layout) → List Token
  | [] => []
  | entry :: rest => pairTokens entry ++ entryTokens rest

def pairTokens : String × Layout → List Token
  | (key, value) => .key :: .scalar key .plain :: .value :: tokens .key value

end

mutual

def node : Layout → Node
  | scalar style s => .scalar none s style.writing
  | words ws => .seq none (ws.map fun w => .scalar none w .plain)
  | noEntries => .map none []
  | items first others => .seq none (first.node :: nodes others)
  | entries key value others => .map none ((.scalar none key .plain, value.node) :: pairs others)

def nodes : List Layout → List Node
  | [] => []
  | item :: rest => item.node :: nodes rest

def pairs : List (String × Layout) → List (Node × Node)
  | [] => []
  | entry :: rest => pair entry :: pairs rest

def pair : String × Layout → Node × Node
  | (key, value) => (.scalar none key .plain, value.node)

end

mutual

def isSound : Layout → Bool
  | scalar style s => style.fits s
  | words ws => ws.all isWord
  | noEntries => true
  | items first others => first.isSound && areSound others
  | entries key value others => isName key && value.isSound && areSoundEntries others

def areSound : List Layout → Bool
  | [] => true
  | item :: rest => item.isSound && areSound rest

def areSoundEntries : List (String × Layout) → Bool
  | [] => true
  | entry :: rest => isSoundEntry entry && areSoundEntries rest

def isSoundEntry : String × Layout → Bool
  | (key, value) => isName key && value.isSound

end

end Layout

namespace Style

theorem fits_of (s : String) : (Style.of s).fits s = true := by
  have some_ : s.toList.contains '\n' = true → s ≠ "" := by rintro h rfl; exact nomatch h
  have clear : isAmbiguous s = false → s ≠ "" := by rintro h rfl; exact nomatch h
  simp only [Style.of]
  split
  case isTrue broken =>
    split
    case isTrue allowed => simp [fits, some_ broken, allowed]
    case isFalse => rfl
  case isFalse whole =>
    split
    case isTrue plain =>
      obtain ⟨noDoubt, allowed⟩ : isAmbiguous s = false ∧ allowsPlain s.toList = true := by
        simpa using plain
      simp [fits, clear noDoubt, allowed]
    case isFalse =>
      split
      case isTrue allowed => simpa [fits, allowed] using whole
      case isFalse => rfl

theorem fits_plain {s : String} (fits : Style.plain.fits s = true) :
    s.toList ≠ [] ∧ allowsPlain s.toList = true := by
  simpa [Style.fits] using fits

theorem starts_plain {cs : List Char} (some_ : cs ≠ []) (allowed : allowsPlain cs = true)
    (t : List Char) : Lexer.Starts (cs ++ t) := by
  obtain ⟨c, cs, rfl⟩ := List.exists_cons_of_ne_nil some_
  intro d head
  obtain rfl : c = d := by simpa using head
  have calm := calm_of_allowsPlain allowed
  refine ⟨calm.head c rfl, ?_, ?_⟩
  · rintro rfl
    exact absurd (show true = false from calm.calm) (by decide)
  · rintro rfl
    simp only [allowsPlain, Bool.and_eq_true, Bool.not_eq_true'] at allowed
    have printable := isPrintable_of_not_isSpecial allowed.1.1.1.1.1 _ List.mem_cons_self
    exact absurd printable (by decide)

end Style

theorem length_toList_le (s : String) : s.toList.length ≤ s.utf8ByteSize := by
  have encoded : s.toByteArray = s.toList.utf8Encode := String.utf8Encode_toList.symm
  rw [String.utf8ByteSize, encoded, List.utf8Encode, List.size_toByteArray]
  induction s.toList with
  | nil => exact Nat.le_refl _
  | cons c cs ih =>
    have := Char.utf8Size_pos c
    simp only [List.flatMap_cons, List.length_append, List.length_cons, String.length_utf8EncodeChar]
    omega

theorem isName_spec {k : String} (named : isName k = true) :
    k.toList ≠ [] ∧ Style.allowsPlain k.toList = true ∧ k.toList.length ≤ 1024 := by
  obtain ⟨plain, short⟩ : Style.of k = .plain ∧ k.utf8ByteSize ≤ 128 := by
    simpa [isName] using named
  obtain ⟨some_, allowed⟩ := Style.fits_plain (plain ▸ Style.fits_of k)
  have := length_toList_le k
  exact ⟨some_, allowed, by omega⟩

namespace Layout

open Lexer

variable {indent : Nat} {place : Place}

theorem starts_text {l : Layout} (sound : l.isSound = true) (t : List Char) :
    Starts (l.text indent place ++ t) := by
  cases l with
  | scalar style s =>
    cases style with
    | plain =>
      obtain ⟨some_, allowed⟩ := Style.fits_plain sound
      simpa [text, scalarText] using Style.starts_plain some_ allowed ('\n' :: t)
    | single | double | literal => exact .cons (by decide) _
  | words ws => exact .cons (by decide) _
  | noEntries => exact .cons (by decide) _
  | items first others => exact .cons (by decide) _
  | entries key value others =>
    obtain ⟨⟨named, -⟩, -⟩ : (isName key = true ∧ _) ∧ _ := by simpa [isSound] using sound
    obtain ⟨some_, allowed, -⟩ := isName_spec named
    simpa [text] using Style.starts_plain some_ allowed _

def Begins (indent : Nat) (place : Place) (column : Nat) (keys : Bool) : Layout → Prop
  | scalar .. | words _ | noEntries => indent < column
  | items .. => column = place.dashColumn indent ∧ keys = true
  | entries .. => column = indent + 2 ∧ keys = true

theorem begins_dash (l : Layout) (column : Nat) : l.Begins column .dash (column + 2) true := by
  cases l <;> simp [Begins, Place.dashColumn]

theorem gap_dash (l : Layout) (column : Nat) : l.gap column .dash = [' '] := by
  cases l <;> rfl

section Passing

variable {outer : List Int} {column d : Nat} {r : List Char} {keys : Bool}

theorem passes_scalar {style : Style} {s : String} (fits : style.fits s = true)
    (within : indent < column) (further : d ≤ indent) (starts : Starts r) :
    Passes ⟨scalarText indent s style ++ (spaces d ++ r), column, indent, outer, 0, keys⟩
      [.scalar s style.writing] ⟨r, d, indent, outer, 0, true⟩ := by
  have same : String.ofList s.toList = s := String.ofList_toList
  have within' : (indent : Int) < column := Int.ofNat_lt.2 within
  cases style with
  | plain =>
    obtain ⟨some_, allowed⟩ := Style.fits_plain fits
    simpa [scalarText, same, Style.writing] using
      Passes.plain some_ allowed within' (Int.ofNat_le.2 further) starts
  | single =>
    obtain ⟨noFeed, allowed⟩ : '\n' ∉ s.toList ∧ Style.allowsSingle s.toList = true := by
      simpa [Style.fits] using fits
    simpa [scalarText, same, Style.writing] using
      Passes.single (Nat.succ_pos _) (Style.apart_of_allowsSingle noFeed allowed) within' starts
  | double =>
    simpa [scalarText, same, Style.writing] using Passes.double s.toList within' starts
  | literal =>
    obtain ⟨some_, allowed⟩ : s.toList ≠ [] ∧ Style.allowsLiteral s.toList = true := by
      simpa [Style.fits] using fits
    have printable : ∀ c ∈ s.toList, isPrintable c = true := by
      refine Style.isPrintable_of_not_isSpecial ?_
      simp only [Style.allowsLiteral, Bool.and_eq_true, Bool.not_eq_true'] at allowed
      exact allowed.1
    have own : ∀ c ∈ s.toList, isBreak c = true → Cursor.IsOwnBreak c := fun c mem broken =>
      .of_printable (printable c mem) broken
    simpa [scalarText, same, Style.writing] using Passes.literal some_ own within further starts

theorem isWord_spec {w : String} (word : isWord w = true) :
    w.toList ≠ [] ∧ ∀ c ∈ w.toList, c.isAlphanum = true := by
  simpa [isWord] using word

theorem starts_word {w : String} (word : isWord w = true) (t : List Char) :
    Starts (w.toList ++ t) := by
  obtain ⟨some_, letters⟩ := isWord_spec word
  obtain ⟨c, cs, split⟩ := List.exists_cons_of_ne_nil some_
  have letter := letters c (by simp [split])
  obtain ⟨shown, -, noComment, -⟩ := noSign_alphanum letter
  rw [split]
  intro d head
  obtain rfl : c = d := by simpa using head
  exact ⟨shown, noComment, by rintro rfl; exact nomatch letter⟩

theorem endsFlow_otherWords (ws : List String) (t : List Char) : EndsFlow (otherWords ws ++ t) := by
  cases ws with
  | nil => exact ⟨']', _, rfl, .inr rfl⟩
  | cons w ws => exact ⟨',', _, rfl, .inl rfl⟩

theorem passes_otherWords (ws : List String) (sound : ws.all isWord = true) (column : Nat)
    (starts : Starts r) (keys : Bool) :
    Passes ⟨otherWords ws ++ (spaces d ++ r), column, indent, outer, 1, keys⟩ (wordTokens ws)
      ⟨r, d, indent, outer, 0, true⟩ := by
  induction ws generalizing column keys with
  | nil => exact .flowClose .sequence starts
  | cons w ws ih =>
    obtain ⟨word, others⟩ : isWord w = true ∧ ws.all isWord = true := by simpa using sound
    obtain ⟨some_, letters⟩ := isWord_spec word
    have ends := endsFlow_otherWords ws (spaces d ++ r)
    simpa [otherWords, wordTokens] using (Passes.flowComma (starts_word word _)).trans
      ((Passes.flowWord some_ letters ends).trans (ih others _ _))

theorem passes_words {ws : List String} (sound : ws.all isWord = true) (within : indent < column)
    (starts : Starts r) :
    Passes ⟨'[' :: wordsText ws ++ (spaces d ++ r), column, indent, outer, 0, keys⟩
      (tokens place (words ws)) ⟨r, d, indent, outer, 0, true⟩ := by
  have within' : (indent : Int) < column := Int.ofNat_lt.2 within
  cases ws with
  | nil =>
    exact (Passes.flowOpen .sequence within' (.cons (by decide) _)).trans
      (.flowClose .sequence starts)
  | cons w ws =>
    obtain ⟨word, others⟩ : isWord w = true ∧ ws.all isWord = true := by simpa using sound
    obtain ⟨some_, letters⟩ := isWord_spec word
    have ends := endsFlow_otherWords ws (spaces d ++ r)
    simpa [wordsText, tokens] using (Passes.flowOpen .sequence within' (starts_word word _)).trans
      ((Passes.flowWord some_ letters ends).trans (passes_otherWords ws others _ starts _))

theorem passes_noEntries (within : indent < column) (starts : Starts r) :
    Passes ⟨'\x7b' :: '\x7d' :: '\n' :: (spaces d ++ r), column, indent, outer, 0, keys⟩
      [.flowMapping, .flowMappingEnd] ⟨r, d, indent, outer, 0, true⟩ := by
  have closing : Starts ('\x7d' :: '\n' :: (spaces d ++ r)) := by
    intro c head
    obtain rfl : '\x7d' = c := by simpa using head
    decide
  exact (Passes.flowOpen .mapping (Int.ofNat_lt.2 within) closing).trans (.flowClose .mapping starts)

theorem passes_key {key : String} {value : Layout} {opened : Int} (named : isName key = true)
    (sound : value.isSound = true) (inside : opened ≤ indent) (t : List Char) :
    ∃ column keys, value.Begins indent .key column keys ∧
      Passes ⟨key.toList ++ ':' :: (value.gap indent .key ++ (value.text indent .key ++ t)), indent,
          opened, outer, 0, true⟩
        (keyTokens (opened < indent) key)
        ⟨value.text indent .key ++ t, column, indent, outerAfter opened indent outer, 0, keys⟩ := by
  obtain ⟨some_, allowed, short⟩ := isName_spec named
  have starts : Starts (value.text indent .key ++ t) := starts_text sound t
  have space := Passes.key_space outer some_ allowed short inside starts
  have line (m : Nat) := Passes.key_line outer m some_ allowed short inside starts
  have same : String.ofList key.toList = key := String.ofList_toList
  rw [same] at space
  simp only [same] at line
  cases value with
  | scalar _ _ | words _ | noEntries => exact ⟨_, false, by simp [Begins]; omega, space⟩
  | items _ _ => exact ⟨indent, true, ⟨rfl, rfl⟩, line indent⟩
  | entries _ _ _ => exact ⟨indent + 2, true, ⟨rfl, rfl⟩, line (indent + 2)⟩

end Passing

theorem outerAfter_deeper (n : Nat) (outer : List Int) :
    outerAfter n (n + 2) outer = (n : Int) :: outer := if_pos (by omega)

theorem outerAfter_level (n : Nat) (outer : List Int) : outerAfter n n outer = outer :=
  if_neg (Int.lt_irrefl _)

mutual

theorem passes_text (l : Layout) (sound : l.isSound = true) {indent column d : Nat} {place : Place}
    {keys : Bool} (begins : l.Begins indent place column keys)
    (known : place = .key ∨ place = .dash) (further : d ≤ indent) {r : List Char}
    (starts : Starts r) (outer : List Int) :
    Passes ⟨l.text indent place ++ (spaces d ++ r), column, indent, outer, 0, keys⟩
      (l.tokens place) ⟨r, d, indent, outer, 0, true⟩ := by
  match l with
  | scalar style s => exact passes_scalar sound begins further starts
  | words ws => exact passes_words sound begins starts
  | noEntries => exact passes_noEntries begins starts
  | items first others =>
    obtain ⟨rfl, rfl⟩ := begins
    obtain ⟨soundFirst, soundOthers⟩ : first.isSound = true ∧ areSound others = true := by
      simpa [isSound] using sound
    rcases known with rfl | rfl
    case inl =>
      obtain ⟨d', r', split, further', starts', pass⟩ :=
        passes_items others soundOthers further starts outer
      have startsFirst : Starts (first.text indent .dash ++ (spaces d' ++ r')) :=
        starts_text soundFirst _
      have dash := Passes.dash outer (show (indent : Int) ≤ indent from Int.le_refl _) startsFirst
      have item := passes_text first soundFirst (begins_dash first indent) (.inr rfl) further'
        starts' outer
      rw [outerAfter_level] at dash
      have all := dash.trans (item.trans pass)
      simpa [text, tokens, Place.dashColumn, Place.isDash, gap_dash, split] using all
    case inr =>
      obtain ⟨d', r', split, further', starts', pass⟩ :=
        passes_items others soundOthers (show d ≤ indent + 2 by omega) starts (indent :: outer)
      have startsFirst : Starts (first.text (indent + 2) .dash ++ (spaces d' ++ r')) :=
        starts_text soundFirst _
      have dash := Passes.dash outer (show (indent : Int) ≤ (indent + 2 : Nat) by omega) startsFirst
      have item := passes_text first soundFirst (begins_dash first (indent + 2)) (.inr rfl) further'
        starts' (indent :: outer)
      rw [outerAfter_deeper] at dash
      have close := Passes.unroll r indent outer true (show (d : Int) < (indent + 2 : Nat) by omega)
      have all := dash.trans (item.trans (pass.trans close))
      have opens : (indent : Int) < (indent : Int) + 2 := by omega
      simpa [text, tokens, Place.dashColumn, Place.isDash, gap_dash, split, opens] using all
  | entries key value others =>
    obtain ⟨rfl, rfl⟩ := begins
    obtain ⟨⟨named, soundValue⟩, soundOthers⟩ :
        (isName key = true ∧ value.isSound = true) ∧ areSoundEntries others = true := by
      simpa [isSound] using sound
    obtain ⟨d', r', split, further', starts', pass⟩ :=
      passes_entries others soundOthers (show d ≤ indent + 2 by omega) starts (indent :: outer)
    have inside : (indent : Int) ≤ (indent + 2 : Nat) := by omega
    obtain ⟨column, keys, begins, first⟩ :=
      passes_key named soundValue inside (spaces d' ++ r')
    have second := passes_text value soundValue begins (.inl rfl) further' starts' (indent :: outer)
    rw [outerAfter_deeper] at first
    have close := Passes.unroll r indent outer true (show (d : Int) < (indent + 2 : Nat) by omega)
    have all := first.trans (second.trans (pass.trans close))
    have opens : (indent : Int) < (indent : Int) + 2 := by omega
    simpa [text, tokens, keyTokens, split, opens] using all

theorem passes_items (ls : List Layout) (sound : areSound ls = true) {column d : Nat}
    (further : d ≤ column) {r : List Char} (starts : Starts r) (outer : List Int) :
    ∃ d' r', itemsText column ls ++ (spaces d ++ r) = spaces d' ++ r' ∧ d' ≤ column ∧ Starts r' ∧
      Passes ⟨r', d', column, outer, 0, true⟩ (itemTokens ls) ⟨r, d, column, outer, 0, true⟩ := by
  match ls with
  | [] => exact ⟨d, r, rfl, further, starts, .refl _⟩
  | first :: others =>
    obtain ⟨soundFirst, soundOthers⟩ : first.isSound = true ∧ areSound others = true := by
      simpa [areSound] using sound
    obtain ⟨d', r', split, further', starts', pass⟩ :=
      passes_items others soundOthers further starts outer
    have startsFirst : Starts (first.text column .dash ++ (spaces d' ++ r')) :=
      starts_text soundFirst _
    have dash := Passes.dash outer (show (column : Int) ≤ column from Int.le_refl _) startsFirst
    have item := passes_text first soundFirst (begins_dash first column) (.inr rfl) further'
      starts' outer
    rw [outerAfter_level] at dash
    have all := dash.trans (item.trans pass)
    refine ⟨column, '-' :: ' ' :: (first.text column .dash ++ (spaces d' ++ r')), ?_,
      Nat.le_refl _, .cons (by decide) _, ?_⟩
    · simp [itemsText, gap_dash, split]
    · simpa [itemTokens] using all

theorem passes_entries (es : List (String × Layout)) (sound : areSoundEntries es = true)
    {column d : Nat} (further : d ≤ column) {r : List Char} (starts : Starts r) (outer : List Int) :
    ∃ d' r', entriesText column es ++ (spaces d ++ r) = spaces d' ++ r' ∧ d' ≤ column ∧ Starts r' ∧
      Passes ⟨r', d', column, outer, 0, true⟩ (entryTokens es) ⟨r, d, column, outer, 0, true⟩ := by
  match es with
  | [] => exact ⟨d, r, rfl, further, starts, .refl _⟩
  | (key, value) :: others =>
    obtain ⟨⟨named, soundValue⟩, soundOthers⟩ :
        (isName key = true ∧ value.isSound = true) ∧ areSoundEntries others = true := by
      simpa [areSoundEntries, isSoundEntry] using sound
    obtain ⟨d', r', split, further', starts', pass⟩ :=
      passes_entries others soundOthers further starts outer
    obtain ⟨column', keys, begins, first⟩ :=
      passes_key named soundValue (Int.le_refl _) (spaces d' ++ r')
    have second := passes_text value soundValue begins (.inl rfl) further' starts' outer
    rw [outerAfter_level] at first
    have all := first.trans (second.trans pass)
    obtain ⟨some_, allowed, -⟩ := isName_spec named
    refine ⟨column, key.toList ++ ':' :: (value.gap column .key ++ (value.text column .key ++
      (spaces d' ++ r'))), ?_, Nat.le_refl _, Style.starts_plain some_ allowed _, ?_⟩
    · simp [entriesText, entryText, split]
    · simpa [entryTokens, pairTokens, keyTokens] using all

end

end Layout

section Allowed

theorem isAllowed_printable {c : Char} (printable : isPrintable c = true) : isAllowed c = true := by
  simp only [isPrintable, isAllowed, Bool.or_eq_true, Bool.and_eq_true, decide_eq_true_eq] at *
  omega

theorem allowed_spaces (n : Nat) : (spaces n).all isAllowed = true := by
  simp only [spaces, List.all_replicate]
  split <;> rfl

theorem allowed_hexDigits (width n : Nat) : (hexDigits width n).all isAllowed = true := by
  have digit : ∀ n < 16, isAllowed (hexUpper n) = true := by decide
  induction width generalizing n with
  | zero => rfl
  | succ width ih =>
    have last := digit (n % 16) (Nat.mod_lt n (by decide))
    simp only [hexDigits, List.all_append, ih, List.all_cons, last]
    rfl

theorem allowed_escapeDouble (c : Char) : (escapeDouble c).all isAllowed = true := by
  unfold escapeDouble
  split
  case isTrue plain =>
    have printable : isPrintable c = true := by
      simp only [Bool.and_eq_true] at plain
      exact plain.1.1.1
    simpa using isAllowed_printable printable
  split
  case h_1 e named =>
    unfold escapeNamed? at named
    split at named
    case h_16 => cases named
    all_goals
      cases named
      rfl
  case h_2 =>
    have digits := allowed_hexDigits
    have sign (d : Char) (cs : List Char) (ok : isAllowed d = true) (rest : cs.all isAllowed = true) :
        ('\\' :: d :: cs).all isAllowed = true := by
      simp only [List.all_cons, ok, rest]
      rfl
    dsimp only
    split
    · exact sign _ _ rfl (digits ..)
    split
    · exact sign _ _ rfl (digits ..)
    · exact sign _ _ rfl (digits ..)

theorem allowed_singleBody {cs : List Char} (ok : cs.all isAllowed = true) (n : Nat) (after : Bool) :
    (singleBody n after cs).all isAllowed = true := by
  induction cs generalizing after with
  | nil => cases after <;> simp [singleBody, allowed_spaces]
  | cons c cs ih =>
    obtain ⟨first, rest⟩ : isAllowed c = true ∧ cs.all isAllowed = true := by simpa using ok
    rw [singleBody]
    split
    · simp [first, ih rest]
    · have quote : isAllowed '\'' = true := rfl
      split <;> split <;> simp [allowed_spaces, first, ih rest, quote]

theorem allowed_literalBody {cs : List Char} (ok : cs.all isAllowed = true) (n : Nat) (after : Bool) :
    (literalBody n after cs).all isAllowed = true := by
  induction cs generalizing after with
  | nil => rfl
  | cons c cs ih =>
    obtain ⟨first, rest⟩ : isAllowed c = true ∧ cs.all isAllowed = true := by simpa using ok
    rw [literalBody]
    split
    · simp [first, ih rest]
    · split <;> simp [allowed_spaces, first, ih rest]

theorem allowed_literalHints (cs : List Char) : (literalHints cs).all isAllowed = true := by
  rw [literalHints, List.all_append, Bool.and_eq_true]
  constructor
  · split <;> rfl
  · split
    case h_1 => rfl
    case h_2 => split <;> rfl
    case h_3 =>
      split
      · rfl
      · split <;> rfl

end Allowed

namespace Layout

theorem allowed_scalarText {style : Style} {s : String} (fits : style.fits s = true) (indent : Nat) :
    (scalarText indent s style).all isAllowed = true := by
  have all_ {cs : List Char} (ordinary : Style.isSpecial cs = false) : cs.all isAllowed = true := by
    rw [List.all_eq_true]
    exact fun c mem => isAllowed_printable (Style.isPrintable_of_not_isSpecial ordinary c mem)
  have feed : isAllowed '\n' = true := rfl
  have quote : isAllowed '\'' = true := rfl
  have quotes : isAllowed '"' = true := rfl
  have bar : isAllowed '|' = true := rfl
  cases style with
  | plain =>
    obtain ⟨-, allowed⟩ := Style.fits_plain fits
    simp only [Style.allowsPlain, Bool.and_eq_true, Bool.not_eq_true'] at allowed
    simp [scalarText, all_ allowed.1.1.1.1.1, feed]
  | single =>
    obtain ⟨-, ordinary, -⟩ : '\n' ∉ s.toList ∧ Style.isSpecial s.toList = false ∧ _ := by
      simpa [Style.fits, Style.allowsSingle] using fits
    simp [scalarText, allowed_singleBody (all_ ordinary), feed, quote]
  | double =>
    have body : (Quoted.doubleBody s.toList).all isAllowed = true := by
      rw [Quoted.doubleBody, List.all_flatMap, List.all_eq_true]
      exact fun c _ => allowed_escapeDouble c
    simp [scalarText, body, feed, quotes]
  | literal =>
    obtain ⟨-, ordinary, -⟩ : s.toList ≠ [] ∧ Style.isSpecial s.toList = false ∧ _ := by
      simpa [Style.fits, Style.allowsLiteral] using fits
    have ended : (literalEnd s.toList).all isAllowed = true := by
      unfold literalEnd
      split <;> rfl
    simp [scalarText, allowed_literalHints, allowed_literalBody (all_ ordinary), ended, feed, bar]

theorem allowed_name {k : String} (named : isName k = true) : k.toList.all isAllowed = true := by
  obtain ⟨-, allowed, -⟩ := isName_spec named
  simp only [Style.allowsPlain, Bool.and_eq_true, Bool.not_eq_true'] at allowed
  rw [List.all_eq_true]
  exact fun c mem =>
    isAllowed_printable (Style.isPrintable_of_not_isSpecial allowed.1.1.1.1.1 c mem)

theorem allowed_word {w : String} (word : isWord w = true) : w.toList.all isAllowed = true := by
  rw [List.all_eq_true]
  intro c mem
  have range := Lexer.range_alphanum ((isWord_spec word).2 c mem)
  simp only [isAllowed, Bool.or_eq_true, Bool.and_eq_true, decide_eq_true_eq]
  omega

theorem allowed_otherWords (ws : List String) (sound : ws.all isWord = true) :
    (otherWords ws).all isAllowed = true := by
  induction ws with
  | nil => rfl
  | cons w ws ih =>
    obtain ⟨word, others⟩ : isWord w = true ∧ ws.all isWord = true := by simpa using sound
    have comma : isAllowed ',' = true := rfl
    have space : isAllowed ' ' = true := rfl
    simp [otherWords, comma, space, allowed_word word, ih others]

theorem allowed_gap (l : Layout) (indent : Nat) (place : Place) :
    (l.gap indent place).all isAllowed = true := by
  have opened (column : Nat) : (opening place column).all isAllowed = true := by
    cases place
    all_goals
      first
      | rfl
      | exact allowed_spaces column
  cases l
  case items => exact opened _
  case entries => exact opened _
  all_goals rfl

mutual

theorem allowed_text (l : Layout) (sound : l.isSound = true) (indent : Nat) (place : Place) :
    (l.text indent place).all isAllowed = true := by
  match l with
  | scalar style s => exact allowed_scalarText sound indent
  | words ws =>
    cases ws with
    | nil => rfl
    | cons w ws =>
      obtain ⟨word, others⟩ : isWord w = true ∧ ws.all isWord = true := by simpa [isSound] using sound
      have bracket : isAllowed '[' = true := rfl
      simp [text, wordsText, bracket, allowed_word word, allowed_otherWords ws others]
  | noEntries => rfl
  | items first others =>
    obtain ⟨soundFirst, soundOthers⟩ : first.isSound = true ∧ areSound others = true := by
      simpa [isSound] using sound
    have dash : isAllowed '-' = true := rfl
    simp [text, dash, allowed_gap, allowed_text first soundFirst, allowed_items others soundOthers]
  | entries key value others =>
    obtain ⟨⟨named, soundValue⟩, soundOthers⟩ :
        (isName key = true ∧ value.isSound = true) ∧ areSoundEntries others = true := by
      simpa [isSound] using sound
    have colon : isAllowed ':' = true := rfl
    simp [text, colon, allowed_gap, allowed_name named, allowed_text value soundValue,
      allowed_entries others soundOthers]

theorem allowed_items (ls : List Layout) (sound : areSound ls = true) (column : Nat) :
    (itemsText column ls).all isAllowed = true := by
  match ls with
  | [] => rfl
  | first :: others =>
    obtain ⟨soundFirst, soundOthers⟩ : first.isSound = true ∧ areSound others = true := by
      simpa [areSound] using sound
    have dash : isAllowed '-' = true := rfl
    simp [itemsText, dash, allowed_spaces, allowed_gap, allowed_text first soundFirst,
      allowed_items others soundOthers]

theorem allowed_entries (es : List (String × Layout)) (sound : areSoundEntries es = true)
    (column : Nat) : (entriesText column es).all isAllowed = true := by
  match es with
  | [] => rfl
  | (key, value) :: others =>
    obtain ⟨⟨named, soundValue⟩, soundOthers⟩ :
        (isName key = true ∧ value.isSound = true) ∧ areSoundEntries others = true := by
      simpa [areSoundEntries, isSoundEntry] using sound
    have colon : isAllowed ':' = true := rfl
    simp [entriesText, entryText, colon, allowed_spaces, allowed_gap, allowed_name named,
      allowed_text value soundValue, allowed_entries others soundOthers]

end

section Document

variable {key : String} {value : Layout} {others : List (String × Layout)}

theorem passes_document (sound : (entries key value others).isSound = true) :
    ∃ new, (entries key value others).tokens .key = new ++ [.blockEnd] ∧
      Lexer.Passes ⟨entriesText 0 ((key, value) :: others), 0, -1, [], 0, true⟩ new
        ⟨[], 0, 0, [-1], 0, true⟩ := by
  obtain ⟨⟨named, soundValue⟩, soundOthers⟩ :
      (isName key = true ∧ value.isSound = true) ∧ areSoundEntries others = true := by
    simpa [isSound] using sound
  have ended : Lexer.Starts [] := by simp [Lexer.Starts]
  obtain ⟨d, r, split, further, starts, pass⟩ :=
    passes_entries others soundOthers (d := 0) (Nat.le_refl 0) ended [-1]
  have inside : (-1 : Int) ≤ (0 : Nat) := by decide
  obtain ⟨column, keys, begins, first⟩ := passes_key named soundValue inside (spaces d ++ r)
  have second := passes_text value soundValue begins (.inl rfl) further starts [-1]
  have all := first.trans (second.trans pass)
  have split : entriesText 0 others = spaces d ++ r := by simpa [spaces] using split
  refine ⟨Lexer.keyTokens true key ++ (value.tokens .key ++ entryTokens others), ?_, ?_⟩
  · simp [tokens, Lexer.keyTokens]
  · simpa [entriesText, entryText, spaces, split] using all

theorem starts_document (sound : (entries key value others).isSound = true) :
    Lexer.Starts (entriesText 0 ((key, value) :: others)) := by
  obtain ⟨⟨named, -⟩, -⟩ : (isName key = true ∧ _) ∧ _ := by simpa [isSound] using sound
  obtain ⟨some_, allowed, -⟩ := isName_spec named
  simpa [entriesText, entryText, spaces] using Style.starts_plain some_ allowed _

theorem tokens?_document (sound : (entries key value others).isSound = true) :
    tokens? (entriesText 0 ((key, value) :: others)) =
      some ((entries key value others).tokens .key) := by
  obtain ⟨new, same, passes⟩ := passes_document sound
  have allowed := allowed_entries ((key, value) :: others) (by
    simpa [isSound, areSoundEntries, isSoundEntry] using sound) 0
  rw [same, Lexer.tokens?_of_passes allowed (starts_document sound) passes]

theorem tokens?_marked (sound : (entries key value others).isSound = true) :
    tokens? ('-' :: '-' :: '-' :: '\n' :: entriesText 0 ((key, value) :: others)) =
      some (.documentStart :: (entries key value others).tokens .key) := by
  obtain ⟨new, same, passes⟩ := passes_document sound
  have allowed := allowed_entries ((key, value) :: others) (by
    simpa [isSound, areSoundEntries, isSoundEntry] using sound) 0
  have starts := starts_document sound
  have dash : isAllowed '-' = true := rfl
  have feed : isAllowed '\n' = true := rfl
  rw [same, Lexer.tokens?_of_passes (by simp only [List.all_cons, dash, feed, allowed]; rfl)
    (.cons (by decide) _) ((Lexer.Passes.documentStart starts).trans passes)]
  rfl

end Document

end Layout

end LedgerBroker.Yaml
