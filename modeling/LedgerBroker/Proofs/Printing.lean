import LedgerBroker.Proofs.NodeReading
import LedgerBroker.Proofs.TimestampReading

set_option autoImplicit false

namespace LedgerBroker.Yaml

/-- A manner of writing: the style of each text, and which lists of words stand between brackets. A
text that is written plainly is not taken for anything else. -/
structure Manner where
  style : String → Style
  brackets : List String → Bool
  fits : ∀ s, (style s).fits s = true
  clear : ∀ s, style s = .plain → Scalar.ofPlain s = .str s
  words : ∀ ws, brackets ws = true → ∀ w ∈ ws, isWord w = true ∧ style w = .plain

namespace Manner

def strings? : List Yaml → Option (List String)
  | [] => some []
  | .str s :: rest => (strings? rest).map (s :: ·)
  | _ :: _ => none

def inLine? (m : Manner) (items : List Yaml) : Option (List String) :=
  (strings? items).filter m.brackets

def numeral (n : Int) : String := String.ofList (integerText n)

def keyName : Yaml → String
  | .str s => s
  | _ => ""

mutual

def layout (m : Manner) : Yaml → Layout
  | .null => .scalar .plain "null"
  | .bool b => .scalar .plain (if b then "true" else "false")
  | .int n => .scalar .plain (numeral n)
  | .float x => .scalar .plain (String.ofList (floatText x))
  | .str s => .scalar (m.style s) s
  | .seq [] => .words []
  | .seq (item :: rest) =>
    match m.inLine? (item :: rest) with
    | some ws => .words ws
    | none => .items (m.layout item) (m.layouts rest)
  | .map [] => .noEntries
  | .map (entry :: rest) =>
    let (key, value) := m.entry entry
    .entries key value (m.entries rest)
  | .tagged _ y => m.layout y

def layouts (m : Manner) : List Yaml → List Layout
  | [] => []
  | item :: rest => m.layout item :: m.layouts rest

def entries (m : Manner) : List (Yaml × Yaml) → List (String × Layout)
  | [] => []
  | entry :: rest => m.entry entry :: m.entries rest

def entry (m : Manner) : Yaml × Yaml → String × Layout
  | (key, value) => (keyName key, m.layout value)

end

end Manner

mutual

/-- Values that are read as they are printed: no floats or tags, natural numbers of 64 bits, and
names for the keys of a mapping. -/
def isTame : Yaml → Bool
  | .null | .bool _ | .str _ => true
  | .int n => decide (0 ≤ n) && decide (n < 0x10000000000000000)
  | .float _ | .tagged _ _ => false
  | .seq items => areTame items
  | .map entries => areTameEntries entries

def areTame : List Yaml → Bool
  | [] => true
  | item :: rest => isTame item && areTame rest

def areTameEntries : List (Yaml × Yaml) → Bool
  | [] => true
  | entry :: rest =>
    isTameEntry entry && !(rest.map fun e => Manner.keyName e.1).contains (Manner.keyName entry.1) &&
      areTameEntries rest

def isTameEntry : Yaml × Yaml → Bool
  | (.str key, value) => isName key && isTame value
  | _ => false

end

theorem Scalar.eq_of_ofPlain {s t : String} (text : Scalar.ofPlain s = .str t) : t = s := by
  unfold Scalar.ofPlain at text
  split at text
  · cases text
  split at text
  · cases text
  split at text
  · unfold Scalar.ofInteger at text
    split at text <;> cases text
  split at text
  · exact (Scalar.str.inj text).symm
  split at text
  · cases text
  · exact (Scalar.str.inj text).symm

theorem Style.of_plain {s : String} (plain : Style.of s = .plain) : Scalar.ofPlain s = .str s := by
  have noDoubt : isAmbiguous s = false := by
    simp only [Style.of] at plain
    split at plain
    · split at plain <;> cases plain
    split at plain
    case isTrue clear => simpa using (Bool.and_eq_true_iff.1 clear).1
    case isFalse => split at plain <;> cases plain
  unfold isAmbiguous at noDoubt
  split at noDoubt
  case h_1 t text => rw [text, Scalar.eq_of_ofPlain text]
  case h_2 => cases noDoubt

def Manner.printed : Manner where
  style := Style.of
  brackets := fun _ => false
  fits := Style.fits_of
  clear _ := Style.of_plain
  words := nofun

section Text

theorem getLast?_literalBody {cs : List Char} (some_ : cs ≠ []) (n : Nat) (after : Bool) :
    (literalBody n after cs).getLast? = cs.getLast? := by
  induction cs generalizing after with
  | nil => exact absurd rfl some_
  | cons c cs ih =>
    rw [literalBody]
    cases cs with
    | nil => split <;> simp [literalBody]
    | cons d cs =>
      have others := ih (by simp)
      split <;> simp [List.getLast?_append, List.getLast?_cons, others]

theorem endLine_open {cs : List Char} {c : Char} (last : cs.getLast? = some c)
    (shown : isBreak c = false) : endLine cs = cs ++ ['\n'] := by
  simp [endLine, last, shown]

theorem endLine_text (s : String) (indent : Nat) :
    endLine (' ' :: textBody (indent + 2) s) =
      ' ' :: Layout.scalarText indent s (Style.of s) := by
  have fits := Style.fits_of s
  unfold textBody
  generalize Style.of s = style at fits
  cases style with
  | plain =>
    obtain ⟨some_, allowed⟩ := Style.fits_plain fits
    simp only [Style.allowsPlain, Bool.and_eq_true, Bool.not_eq_true'] at allowed
    obtain ⟨c, last⟩ := Option.ne_none_iff_exists'.1 fun h => some_ (List.getLast?_eq_none_iff.1 h)
    have shown : isBreak c = false := by
      simpa using List.any_eq_false.1 allowed.1.1.1.1.2 c (List.mem_of_getLast? last)
    rw [endLine_open (c := c) (by simp [List.getLast?_cons, last]) shown]
    rfl
  | single =>
    rw [endLine_open (c := '\'') (by simp [List.getLast?_cons]) rfl]
    simp [Layout.scalarText]
  | double =>
    rw [endLine_open (c := '"') (by simp [List.getLast?_cons]) rfl]
    simp [Layout.scalarText, Quoted.doubleBody]
  | literal =>
    obtain ⟨some_, -⟩ : s.toList ≠ [] ∧ _ := by simpa [Style.fits] using fits
    have last : (' ' :: '|' :: (literalHints s.toList ++ '\n' ::
        literalBody (indent + 2) true s.toList)).getLast? = s.toList.getLast? := by
      obtain ⟨c, last⟩ := Option.ne_none_iff_exists'.1 fun h =>
        some_ (List.getLast?_eq_none_iff.1 h)
      simp [List.getLast?_cons, List.getLast?_append, getLast?_literalBody some_, last]
    simp only [endLine, last, Layout.scalarText, literalEnd]
    split <;> simp

theorem digitChar_alphanum {d : Nat} (small : d < 10) :
    (Numeral.digitChar d).isAlphanum = true ∧ (Numeral.digitChar d).isDigit = true := by
  have : ∀ d < 10, (Numeral.digitChar d).isAlphanum = true ∧ (Numeral.digitChar d).isDigit = true := by
    decide
  exact this d small

theorem integerText_nat (n : Nat) :
    integerText n = (Numeral.digits n).map Numeral.digitChar := by
  have : ¬ (n : Int) < 0 := by omega
  simp [integerText, this]

theorem hasPair_none {p q : Char → Bool} {cs : List Char} (none_ : ∀ c ∈ cs, p c = false) :
    Style.hasPair p q cs = false := by
  induction cs with
  | nil => rfl
  | cons c cs ih =>
    have others := ih fun d mem => none_ d (List.mem_cons_of_mem _ mem)
    cases cs with
    | nil => rfl
    | cons d cs => simp [Style.hasPair, none_ c List.mem_cons_self, others]

theorem interrupts_none {cs : List Char} (noSign : ∀ c ∈ cs, c ≠ ':' ∧ c ≠ '#') (before : Char) :
    Style.interrupts before cs = false := by
  induction cs generalizing before with
  | nil => rfl
  | cons c cs ih =>
    have others := ih (fun d mem => noSign d (List.mem_cons_of_mem _ mem)) c
    simp [Style.interrupts, noSign c List.mem_cons_self, others]

theorem allowsPlain_alphanum {cs : List Char} (some_ : cs ≠ [])
    (letters : ∀ c ∈ cs, c.isAlphanum = true) : Style.allowsPlain cs = true := by
  have other {c d : Char} (mem : c ∈ cs) (sign : d.isAlphanum = false) : c ≠ d := by
    rintro rfl
    exact nomatch (letters c mem).symm.trans sign
  have printable : ∀ c ∈ cs, isPrintable c = true := by
    intro c mem
    have range := Lexer.range_alphanum (letters c mem)
    simp only [isPrintable, Bool.or_eq_true, Bool.and_eq_true, decide_eq_true_eq]
    omega
  have noBlank : ∀ c ∈ cs, isSpaceOrBreak c = false := fun c mem =>
    (Lexer.noSign_alphanum (letters c mem)).1
  have noBreak : cs.any isBreak = false := by
    rw [List.any_eq_false]
    intro c mem
    simp [(Bool.or_eq_false_iff.1 (noBlank c mem)).2]
  have ordinary : Style.isSpecial cs = false := by
    have noPair := hasPair_none (p := (· = ' ')) (q := isBreak) fun c mem => by
      simpa using other mem (d := ' ') rfl
    simp [Style.isSpecial, noPair]
    exact printable
  have noSpace {o : Option Char} (inside : ∀ c ∈ o, c ∈ cs) : o.any (· = ' ') = false := by
    cases o with
    | none => rfl
    | some c => simpa using other (inside c rfl) (d := ' ') rfl
  have noEdge : Style.touchesEdge (· = ' ') cs = false := by
    rw [Style.touchesEdge, noSpace fun c head => List.mem_of_mem_head? head,
      noSpace fun c last => List.mem_of_getLast? last]
    rfl
  obtain ⟨c, cs, rfl⟩ := List.exists_cons_of_ne_nil some_
  have noMarker : Style.startsAsMarker (c :: cs) = false := by
    simp [Style.startsAsMarker, other List.mem_cons_self (d := '-') rfl,
      other List.mem_cons_self (d := '.') rfl]
  have noIndicator : Style.startsAsIndicator (c :: cs) = false := by
    have noSign : Style.isIndicator c = false :=
      Lexer.not_contains_alphanum (by decide) (letters c List.mem_cons_self)
    simp [Style.startsAsIndicator, noSign, other List.mem_cons_self (d := '?') rfl,
      other List.mem_cons_self (d := ':') rfl, other List.mem_cons_self (d := '-') rfl]
  have calm := interrupts_none (fun d mem =>
    ⟨other (List.mem_cons_of_mem _ mem) rfl, other (List.mem_cons_of_mem _ mem) rfl⟩) c
  simp [Style.allowsPlain, ordinary, noBreak, noEdge, noMarker, noIndicator, calm]

theorem fits_numeral (n : Nat) : Style.plain.fits (Manner.numeral n) = true := by
  have letters : ∀ c ∈ integerText n, c.isAlphanum = true := by
    intro c mem
    rw [integerText_nat] at mem
    obtain ⟨d, digit, rfl⟩ := List.mem_map.1 mem
    exact (digitChar_alphanum (Numeral.digits_lt n d digit)).1
  have some_ : integerText n ≠ [] := by
    rw [integerText_nat]
    simpa using Numeral.digits_ne_nil n
  simp [Style.fits, Manner.numeral, some_, allowsPlain_alphanum some_ letters]

end Text

section Printed

open Manner (printed)

theorem isBreak_digits (n : Nat) : ∀ c ∈ (integerText n).getLast?, isBreak c = false := by
  intro c last
  have mem := List.mem_of_getLast? last
  rw [integerText_nat] at mem
  obtain ⟨d, digit, rfl⟩ := List.mem_map.1 mem
  have letter := (digitChar_alphanum (Numeral.digits_lt n d digit)).1
  exact (Bool.or_eq_false_iff.1 (Lexer.noSign_alphanum letter).1).2

theorem printed_inLine (items : List Yaml) : printed.inLine? items = none := by
  simp [Manner.inLine?, printed]

theorem printed_name {k : String} (named : isName k = true) (indent : Nat) :
    simpleKey? indent (.str k) = some k.toList := by
  obtain ⟨plain, short⟩ : Style.of k = .plain ∧ k.utf8ByteSize ≤ 128 := by
    simpa [isName] using named
  obtain ⟨-, allowed, -⟩ := isName_spec named
  simp only [Style.allowsPlain, Bool.and_eq_true, Bool.not_eq_true'] at allowed
  have whole : k.toList.any isBreak = false := allowed.1.1.1.1.2
  simp [simpleKey?, whole, Nat.not_lt.2 short, inline?, textBody, plain]

theorem endLine_numeral (n : Nat) (indent : Nat) :
    endLine (' ' :: integerText n) = ' ' :: Layout.scalarText indent (Manner.numeral n) .plain := by
  have some_ : integerText n ≠ [] := by
    rw [integerText_nat]
    simpa using Numeral.digits_ne_nil n
  obtain ⟨c, last⟩ := Option.ne_none_iff_exists'.1 fun h => some_ (List.getLast?_eq_none_iff.1 h)
  rw [endLine_open (c := c) (by simp [List.getLast?_cons, last]) (isBreak_digits n c last)]
  simp [Layout.scalarText, Manner.numeral]

theorem Layout.text_entries (key : String) (value : Layout) (others : List (String × Layout))
    (indent : Nat) (place : Place) : (Layout.entries key value others).text indent place =
      entryText (indent + 2) (key, value) ++ entriesText (indent + 2) others := by
  simp [text, entryText]

mutual

theorem value_printed (y : Yaml) (tame : isTame y = true) (indent : Nat) (place : Place) :
    value indent place y =
      (printed.layout y).gap indent place ++ (printed.layout y).text indent place := by
  match y with
  | .null => rfl
  | .bool b => cases b <;> rfl
  | .int n =>
    obtain ⟨natural, -⟩ : 0 ≤ n ∧ n < 0x10000000000000000 := by simpa [isTame] using tame
    obtain ⟨n, rfl⟩ := Int.eq_ofNat_of_zero_le natural
    exact endLine_numeral n indent
  | .float x => cases tame
  | .tagged tag y => cases tame
  | .str s => exact endLine_text s indent
  | .seq [] => rfl
  | .seq (item :: rest) =>
    obtain ⟨tameFirst, tameOthers⟩ : isTame item = true ∧ areTame rest = true := by
      simpa [isTame, areTame] using tame
    have first := value_printed item tameFirst (place.dashColumn indent) .dash
    have others := items_printed rest tameOthers (place.dashColumn indent)
    simp [value, first, others, Manner.layout, printed_inLine, Layout.gap, Layout.text]
  | .map [] => rfl
  | .map (entry :: rest) =>
    obtain ⟨⟨tameFirst, -⟩, tameOthers⟩ :
        (isTameEntry entry = true ∧ _) ∧ areTameEntries rest = true := by
      simpa [isTame, areTameEntries] using tame
    have first := mapping_printed entry tameFirst (indent + 2)
    have others := entries_printed rest tameOthers (indent + 2)
    have shape : printed.layout (.map (entry :: rest)) = .entries (printed.entry entry).1
      (printed.entry entry).2 (printed.entries rest) := rfl
    rw [shape, value, first, others, Layout.text_entries, Layout.gap]
    simp

theorem items_printed (ys : List Yaml) (tame : areTame ys = true) (indent : Nat) :
    items indent ys = Layout.itemsText indent (printed.layouts ys) := by
  match ys with
  | [] => rfl
  | item :: rest =>
    obtain ⟨tameFirst, tameOthers⟩ : isTame item = true ∧ areTame rest = true := by
      simpa [areTame] using tame
    have first := value_printed item tameFirst indent .dash
    have others := items_printed rest tameOthers indent
    simp [items, first, others, Manner.layouts, Layout.itemsText]

theorem entries_printed (es : List (Yaml × Yaml)) (tame : areTameEntries es = true)
    (indent : Nat) : Yaml.entries indent es = Layout.entriesText indent (printed.entries es) := by
  match es with
  | [] => rfl
  | entry :: rest =>
    obtain ⟨⟨tameFirst, -⟩, tameOthers⟩ :
        (isTameEntry entry = true ∧ _) ∧ areTameEntries rest = true := by
      simpa [areTameEntries] using tame
    have first := mapping_printed entry tameFirst indent
    have others := entries_printed rest tameOthers indent
    simp [Yaml.entries, first, others, Manner.entries, Layout.entriesText]

theorem mapping_printed (e : Yaml × Yaml) (tame : isTameEntry e = true) (indent : Nat) :
    mapping indent e = Layout.entryText indent (printed.entry e) := by
  match e with
  | (.str key, value) =>
    obtain ⟨named, tameValue⟩ : isName key = true ∧ isTame value = true := by
      simpa [isTameEntry] using tame
    have inside := value_printed value tameValue indent .key
    simp [mapping, printed_name named, inside, Manner.entry, Manner.keyName, Layout.entryText]
  | (.null, _) | (.bool _, _) | (.int _, _) | (.float _, _) | (.seq _, _) | (.map _, _)
  | (.tagged _ _, _) => cases tame

end

end Printed

section Sound

variable (m : Manner)

theorem Manner.inLine?_spec {m : Manner} {items : List Yaml} {ws : List String}
    (inLine : m.inLine? items = some ws) : items = ws.map .str ∧ m.brackets ws = true := by
  obtain ⟨texts, bracketed⟩ := Option.filter_eq_some_iff.1 inLine
  refine ⟨?_, bracketed⟩
  have : ∀ items ws, Manner.strings? items = some ws → items = ws.map .str := by
    intro items
    induction items with
    | nil => intro ws texts; cases texts; rfl
    | cons item rest ih =>
      intro ws texts
      cases item
      case str s =>
        obtain ⟨ws, others, rfl⟩ := Option.map_eq_some_iff.1 texts
        rw [ih ws others]
        rfl
      all_goals cases texts
  exact this items ws texts

mutual

theorem sound_layout (y : Yaml) (tame : isTame y = true) : (m.layout y).isSound = true := by
  match y with
  | .null => rfl
  | .bool b => cases b <;> rfl
  | .int n =>
    obtain ⟨natural, -⟩ : 0 ≤ n ∧ n < 0x10000000000000000 := by simpa [isTame] using tame
    obtain ⟨n, rfl⟩ := Int.eq_ofNat_of_zero_le natural
    exact fits_numeral n
  | .float x => cases tame
  | .tagged tag y => cases tame
  | .str s => exact m.fits s
  | .seq [] => rfl
  | .seq (item :: rest) =>
    obtain ⟨tameFirst, tameOthers⟩ : isTame item = true ∧ areTame rest = true := by
      simpa [isTame, areTame] using tame
    rw [Manner.layout]
    split
    case h_1 ws inLine =>
      have words := m.words ws (Manner.inLine?_spec inLine).2
      exact List.all_eq_true.2 fun w mem => (words w mem).1
    case h_2 =>
      simp [Layout.isSound, sound_layout item tameFirst, sound_layouts rest tameOthers]
  | .map [] => rfl
  | .map (entry :: rest) =>
    obtain ⟨⟨tameFirst, -⟩, tameOthers⟩ :
        (isTameEntry entry = true ∧ _) ∧ areTameEntries rest = true := by
      simpa [isTame, areTameEntries] using tame
    have first := sound_entry entry tameFirst
    rw [Layout.isSoundEntry.eq_def] at first
    have shape : m.layout (.map (entry :: rest)) = .entries (m.entry entry).1
      (m.entry entry).2 (m.entries rest) := rfl
    simpa [shape, Layout.isSound, sound_entries rest tameOthers] using first

theorem sound_layouts (ys : List Yaml) (tame : areTame ys = true) :
    Layout.areSound (m.layouts ys) = true := by
  match ys with
  | [] => rfl
  | item :: rest =>
    obtain ⟨tameFirst, tameOthers⟩ : isTame item = true ∧ areTame rest = true := by
      simpa [areTame] using tame
    simp [Manner.layouts, Layout.areSound, sound_layout item tameFirst,
      sound_layouts rest tameOthers]

theorem sound_entries (es : List (Yaml × Yaml)) (tame : areTameEntries es = true) :
    Layout.areSoundEntries (m.entries es) = true := by
  match es with
  | [] => rfl
  | entry :: rest =>
    obtain ⟨⟨tameFirst, -⟩, tameOthers⟩ :
        (isTameEntry entry = true ∧ _) ∧ areTameEntries rest = true := by
      simpa [areTameEntries] using tame
    simp [Manner.entries, Layout.areSoundEntries, sound_entry entry tameFirst,
      sound_entries rest tameOthers]

theorem sound_entry (e : Yaml × Yaml) (tame : isTameEntry e = true) :
    Layout.isSoundEntry (m.entry e) = true := by
  match e with
  | (.str key, value) =>
    obtain ⟨named, tameValue⟩ : isName key = true ∧ isTame value = true := by
      simpa [isTameEntry] using tame
    simp [Manner.entry, Manner.keyName, Layout.isSoundEntry, named, sound_layout value tameValue]
  | (.null, _) | (.bool _, _) | (.int _, _) | (.float _, _) | (.seq _, _) | (.map _, _)
  | (.tagged _ _, _) => cases tame

end

end Sound

end LedgerBroker.Yaml
