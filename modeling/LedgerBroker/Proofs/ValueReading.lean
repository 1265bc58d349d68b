import LedgerBroker.Proofs.Printing
import LedgerBroker.Yaml.Load

set_option autoImplicit false

namespace LedgerBroker.Yaml

section Numerals

open Numeral (digits digitChar digits_lt digits_ne_nil head_digits)

theorem digitIn?_digitChar {d : Nat} (small : d < 10) :
    Scalar.digitIn? 10 (digitChar d) = some d := by
  have : ∀ d < 10, Scalar.digitIn? 10 (digitChar d) = some d := by decide
  exact this d small

theorem digits?_digits (n : Nat) : Scalar.digits? 10 ((digits n).map digitChar) = some n := by
  have folded : ∀ (ds : List Nat) (start : Nat), (∀ d ∈ ds, d < 10) →
      (ds.map digitChar).foldlM (fun n c => (Scalar.digitIn? 10 c).map (n * 10 + ·)) start =
        some (ds.foldl (fun n d => n * 10 + d) start) := by
    intro ds
    induction ds with
    | nil => intro start _; rfl
    | cons d ds ih =>
      intro start small
      have others := ih (start * 10 + d) fun e mem => small e (List.mem_cons_of_mem _ mem)
      simpa [digitIn?_digitChar (small d List.mem_cons_self)] using others
  have some_ : (digits n).map digitChar ≠ [] := by simpa using digits_ne_nil n
  rw [Scalar.digits?, if_neg some_, folded _ _ (digits_lt n)]
  exact congrArg some (Timestamp.Reading.ofDigits_digits n)

theorem integer?_plain {d : Nat} (small : d < 10) {cs : List Char} (front : 0 < d ∨ cs = []) :
    Scalar.integer? (digitChar d :: cs) =
      (Scalar.digits? 10 (digitChar d :: cs)).map Int.ofNat := by
  have chars : ∀ d < 10, digitChar d ≠ '+' ∧ digitChar d ≠ '-' ∧ (0 < d → digitChar d ≠ '0') := by
    decide
  obtain ⟨noPlus, noMinus, noZero⟩ := chars d small
  have noRadix {c : Char} {rest : List Char} : digitChar d :: cs ≠ '0' :: c :: rest := by
    intro h
    obtain ⟨head, tail⟩ := List.cons.inj h
    rcases front with positive | rfl
    · exact noZero positive head
    · cases tail
  have unsigned : Scalar.signOf (digitChar d :: cs) = (false, digitChar d :: cs) := by
    unfold Scalar.signOf
    split
    case h_1 h => exact absurd (List.cons.inj h).1 noPlus
    case h_2 h => exact absurd (List.cons.inj h).1 noMinus
    case h_3 => rfl
  have unpadded : Scalar.isZeroPadded (digitChar d :: cs) = false := by
    unfold Scalar.isZeroPadded
    split
    case h_1 h => exact absurd (List.cons.inj h).1 noPlus
    case h_2 h => exact absurd (List.cons.inj h).1 noMinus
    case h_3 h => exact absurd h noRadix
    case h_4 => rfl
  rw [Scalar.integer?, unsigned]
  simp only [unpadded, Bool.false_eq_true, if_false]
  split
  case h_1 h => exact absurd h noRadix
  case h_2 h => exact absurd h noRadix
  case h_3 h => exact absurd h noRadix
  case h_4 => cases Scalar.digits? 10 (digitChar d :: cs) <;> rfl

theorem integer?_digits (n : Nat) : Scalar.integer? ((digits n).map digitChar) = some (n : Int) := by
  have read := digits?_digits n
  obtain ⟨d, ds, list⟩ := List.exists_cons_of_ne_nil (digits_ne_nil n)
  have small : d < 10 := digits_lt n d (list ▸ List.mem_cons_self)
  rw [list, List.map_cons] at read ⊢
  rw [integer?_plain small ((head_digits list).imp_right (congrArg _)), read]
  rfl

variable {n : Nat}

theorem numeral_ne {t : String} (other : t.toList.head?.all (!·.isDigit) = true) :
    Manner.numeral n ≠ t := by
  rintro rfl
  obtain ⟨d, ds, list⟩ := List.exists_cons_of_ne_nil (digits_ne_nil n)
  have digit := (digitChar_alphanum (digits_lt n d (list ▸ List.mem_cons_self))).2
  simp [Manner.numeral, integerText_nat, list, digit] at other

theorem fitsWide_nat (small : n < Numeral.bound64) : Scalar.fitsWide n = true := by
  have high : Numeral.bound64 < Numeral.power 2 128 := by decide
  have low : 0 ≤ (Numeral.power 2 127 : Int) := Int.natCast_nonneg _
  simp only [Scalar.fitsWide, Bool.and_eq_true, decide_eq_true_eq]
  omega

theorem ofInteger_nat (small : n < Numeral.bound64) : Scalar.ofInteger n = .int n := by
  have : n < 0x10000000000000000 := small
  rw [Scalar.ofInteger, if_pos (by omega)]

theorem ofPlain_integer {s : String} {k : Int} (noNull : ¬ (s = "" ∨ Scalar.isNull s = true))
    (noBool : Scalar.bool? s = none)
    (read : (Scalar.integer? s.toList).filter Scalar.fitsWide = some k) :
    Scalar.ofPlain s = Scalar.ofInteger k := by
  rw [Scalar.ofPlain, if_neg noNull, noBool]
  simp only
  rw [read]

theorem integer?_numeral (n : Nat) :
    Scalar.integer? (Manner.numeral n).toList = some (n : Int) := by
  rw [Manner.numeral, String.toList_ofList, integerText_nat, integer?_digits]

theorem numeral_notNull : ¬ (Manner.numeral n = "" ∨ Scalar.isNull (Manner.numeral n) = true) := by
  have ne {t : String} (other : t.toList.head?.all (!·.isDigit) = true) : Manner.numeral n ≠ t :=
    numeral_ne other
  simp [Scalar.isNull, ne (t := "") rfl, ne (t := "null") rfl, ne (t := "Null") rfl,
    ne (t := "NULL") rfl, ne (t := "~") rfl]

theorem ofPlain_numeral (small : n < Numeral.bound64) :
    Scalar.ofPlain (Manner.numeral n) = .int n := by
  have ne {t : String} (other : t.toList.head?.all (!·.isDigit) = true) : Manner.numeral n ≠ t :=
    numeral_ne other
  have noBool : Scalar.bool? (Manner.numeral n) = none := by
    simp [Scalar.bool?, ne (t := "true") rfl, ne (t := "True") rfl, ne (t := "TRUE") rfl,
      ne (t := "false") rfl, ne (t := "False") rfl, ne (t := "FALSE") rfl]
  have read : (Scalar.integer? (Manner.numeral n).toList).filter Scalar.fitsWide = some (n : Int) := by
    rw [integer?_numeral, Option.filter_some, if_pos (fitsWide_nat small)]
  rw [ofPlain_integer numeral_notNull noBool read, ofInteger_nat small]

end Numerals

mutual

def levels : Yaml → Nat
  | .null | .bool _ | .int _ | .float _ | .str _ => 0
  | .seq items => levelsOf items + 1
  | .map entries => levelsOfEntries entries + 1
  | .tagged _ y => levels y

def levelsOf : List Yaml → Nat
  | [] => 0
  | item :: rest => max (levels item) (levelsOf rest)

def levelsOfEntries : List (Yaml × Yaml) → Nat
  | [] => 0
  | entry :: rest => max (levelsOfEntry entry) (levelsOfEntries rest)

def levelsOfEntry : Yaml × Yaml → Nat
  | (_, y) => levels y

end

namespace Manner

variable (m : Manner)

def node (y : Yaml) : Node := (m.layout y).node

theorem node_str (s : String) : m.node (.str s) = .scalar none s (m.style s).writing := rfl

theorem nodes_layouts (ys : List Yaml) : Layout.nodes (m.layouts ys) = ys.map m.node := by
  induction ys with
  | nil => rfl
  | cons y ys ih => exact congrArg (m.node y :: ·) ih

theorem node_seq (ys : List Yaml) : m.node (.seq ys) = .seq none (ys.map m.node) := by
  cases ys with
  | nil => rfl
  | cons y ys =>
    rw [node, layout]
    split
    case h_1 ws inLine =>
      obtain ⟨same, bracketed⟩ := inLine?_spec inLine
      have plain : ∀ w ∈ ws, m.node (.str w) = .scalar none w .plain := fun w mem => by
        rw [node_str, (m.words ws bracketed w mem).2]
        rfl
      rw [same, Layout.node, List.map_map]
      exact congrArg _ (List.map_congr_left fun w mem => (plain w mem).symm)
    case h_2 => rw [Layout.node, nodes_layouts]; rfl

theorem node_map (es : List (Yaml × Yaml)) : m.node (.map es) =
    .map none (es.map fun e => (.scalar none (keyName e.1) .plain, m.node e.2)) := by
  have pairs : ∀ es, Layout.pairs (m.entries es) =
      es.map fun e => (.scalar none (keyName e.1) .plain, m.node e.2) := by
    intro es
    induction es with
    | nil => rfl
    | cons e es ih =>
      obtain ⟨key, y⟩ := e
      rw [entries, Layout.pairs, ih]
      rfl
  cases es with
  | nil => rfl
  | cons e es =>
    obtain ⟨key, y⟩ := e
    rw [← pairs]
    rfl

end Manner

namespace Loader

theorem value_scalar (depth : Nat) {s : String} {w : Writing} {y : Yaml}
    (stands : scalar? none s w = some y) : value depth (.scalar none s w) = pure y := by
  have read : value depth (.scalar none s w) = leaf none s w := by cases depth <;> rfl
  rw [read, leaf]
  simp [stands, ownTag?, withTag]

variable (m : Manner)

theorem value_str (depth : Nat) (s : String) : value depth (m.node (.str s)) = pure (.str s) := by
  rw [m.node_str]
  refine value_scalar depth ?_
  have clear := m.clear s
  cases style : m.style s with
  | plain => exact congrArg ofScalar (clear style)
  | single | double | literal => rfl

theorem value_seq (depth : Nat) (ns : List Node) :
    value (depth + 1) (.seq none ns) = (do return .seq (← ns.mapM (value depth))) := rfl

theorem value_map (depth : Nat) (es : List (Node × Node)) :
    value (depth + 1) (.map none es) = (do return .map (← es.foldlM (addEntry (value depth)) [])) := rfl

theorem hasKey_append (ys : List (Yaml × Yaml)) (j k : String) (y : Yaml) :
    hasKey (ys ++ [(.str j, y)]) (.str k) = (hasKey ys (.str k) || j == k) := by
  simp only [hasKey, List.any_append, List.any_cons, List.any_nil, Bool.or_false]
  rw [show (Yaml.str j == Yaml.str k) = (j == k) from same.eq_5 j k]

theorem value_name {k : String} (named : isName k = true) (depth : Nat) :
    value depth (.scalar none k .plain) = pure (.str k) := by
  obtain ⟨plain, -⟩ : Style.of k = .plain ∧ _ := by simpa [isName] using named
  exact value_scalar depth (congrArg ofScalar (Style.of_plain plain))

theorem named_of_tame {es : List (Yaml × Yaml)} (tame : areTameEntries es = true)
    {e : Yaml × Yaml} (mem : e ∈ es) : ∃ k y, e = (.str k, y) := by
  induction es with
  | nil => cases mem
  | cons entry es ih =>
    obtain ⟨⟨named, -⟩, others⟩ :
        (isTameEntry entry = true ∧ _) ∧ areTameEntries es = true := by
      simpa [areTameEntries] using tame
    rcases List.mem_cons.1 mem with rfl | mem
    · obtain ⟨key, y⟩ := e
      cases key
      case str k => exact ⟨k, y, rfl⟩
      all_goals cases named
    · exact ih others mem

mutual

theorem value_node (y : Yaml) (tame : isTame y = true) (depth : Nat) (within : levels y ≤ depth) :
    value depth (m.node y) = pure y := by
  match y with
  | .null => exact value_scalar depth rfl
  | .bool b => cases b <;> exact value_scalar depth rfl
  | .int n =>
    obtain ⟨natural, small⟩ : 0 ≤ n ∧ n < 0x10000000000000000 := by simpa [isTame] using tame
    obtain ⟨n, rfl⟩ := Int.eq_ofNat_of_zero_le natural
    exact value_scalar depth (congrArg ofScalar (ofPlain_numeral (Int.ofNat_lt.1 small)))
  | .float x => cases tame
  | .tagged tag y => cases tame
  | .str s => exact value_str m depth s
  | .seq ys =>
    obtain ⟨depth, rfl⟩ : ∃ d, depth = d + 1 := ⟨depth - 1, by simp only [levels] at within; omega⟩
    rw [m.node_seq, value_seq, values_nodes ys tame depth (Nat.le_of_succ_le_succ within)]
    rfl
  | .map es =>
    obtain ⟨depth, rfl⟩ : ∃ d, depth = d + 1 := ⟨depth - 1, by simp only [levels] at within; omega⟩
    rw [m.node_map, value_map, entries_nodes es tame depth (Nat.le_of_succ_le_succ within) []
      fun _ _ => rfl]
    rfl

theorem values_nodes (ys : List Yaml) (tame : areTame ys = true) (depth : Nat)
    (within : levelsOf ys ≤ depth) : (ys.map m.node).mapM (value depth) = pure ys := by
  match ys with
  | [] => rfl
  | y :: ys =>
    obtain ⟨tameFirst, tameOthers⟩ : isTame y = true ∧ areTame ys = true := by
      simpa [areTame] using tame
    obtain ⟨first, others⟩ : levels y ≤ depth ∧ levelsOf ys ≤ depth := by
      simpa only [levelsOf, Nat.max_le] using within
    simp [value_node y tameFirst depth first, values_nodes ys tameOthers depth others]

theorem entries_nodes (es : List (Yaml × Yaml)) (tame : areTameEntries es = true) (depth : Nat)
    (within : levelsOfEntries es ≤ depth) (read : List (Yaml × Yaml))
    (fresh : ∀ e ∈ es, hasKey read e.1 = false) :
    (es.map fun e => ((.scalar none (Manner.keyName e.1) .plain : Node), m.node e.2)).foldlM
      (addEntry (value depth)) read = pure (read ++ es) := by
  match es with
  | [] => simp
  | (.str k, y) :: es =>
    obtain ⟨⟨⟨named, tameFirst⟩, distinct⟩, tameOthers⟩ : ((isName k = true ∧ isTame y = true) ∧
        (∀ j z, (j, z) ∈ es → Manner.keyName j ≠ k)) ∧ areTameEntries es = true := by
      simpa [areTameEntries, isTameEntry, Manner.keyName] using tame
    obtain ⟨first, others⟩ : levels y ≤ depth ∧ levelsOfEntries es ≤ depth := by
      simpa only [levelsOfEntries, levelsOfEntry, Nat.max_le] using within
    have added : addEntry (value depth) read (.scalar none k .plain, m.node y) =
        pure (read ++ [(.str k, y)]) := by
      simp [addEntry, value_name named, fresh _ List.mem_cons_self,
        value_node y tameFirst depth first]
    have rest := entries_nodes es tameOthers depth others (read ++ [(.str k, y)]) fun e mem => by
      obtain ⟨j, z, rfl⟩ := named_of_tame tameOthers mem
      have other : k ≠ j := Ne.symm (distinct (.str j) z mem)
      rw [hasKey_append, fresh _ (List.mem_cons_of_mem _ mem), beq_false_of_ne other]
      rfl
    rw [List.map_cons, List.foldlM_cons, Manner.keyName, added, pure_bind, rest,
      List.append_assoc]
    rfl
  | (.null, _) :: _ | (.bool _, _) :: _ | (.int _, _) :: _ | (.float _, _) :: _ | (.seq _, _) :: _
  | (.map _, _) :: _ | (.tagged _ _, _) :: _ => simp [areTameEntries, isTameEntry] at tame

end

end Loader

section Documents

variable {entry : Yaml × Yaml} {rest : List (Yaml × Yaml)}

theorem parse?_printed (tame : areTameEntries (entry :: rest) = true) :
    Document.parse? (document (entry :: rest)) =
      some (some ⟨Manner.printed.node (.map (entry :: rest)), [],
        (Manner.printed.node (.map (entry :: rest))).size⟩) := by
  rw [document, if_neg (by simp), entries_printed _ tame]
  exact Document.parse?_layout (sound_layout Manner.printed (.map (entry :: rest)) tame)

theorem parse?_document (tame : areTameEntries (entry :: rest) = true)
    (within : levels (.map (entry :: rest)) ≤ Loader.greatestDepth) :
    parse? (String.ofList (document (entry :: rest))) = some (.map (entry :: rest)) := by
  have value := Loader.value_node Manner.printed (.map (entry :: rest)) tame _ within
  rw [parse?, String.toList_ofList, parse?_printed tame]
  simp only [Option.bind_eq_bind, Option.bind_some, Loader.run, value]
  rfl

end Documents

end LedgerBroker.Yaml
