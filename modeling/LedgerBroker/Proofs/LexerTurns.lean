import LedgerBroker.Proofs.LexerPositions
import LedgerBroker.Proofs.LiteralBlocks

set_option autoImplicit false

namespace LedgerBroker.Yaml.Lexer

section Dispatch

variable {s : State} {c : Char} {cs t : List Char}

theorem startsPlain_ne {d : Char} (plain : startsPlain c = true) (other : startsPlain d = false) :
    c ≠ d := by
  rintro rfl
  exact nomatch plain.symm.trans other

theorem token_startsPlain (plain : startsPlain c = true) (noMarker : s.cursor.atMarker = false)
    (after : List Char) : token s c after = plainScalar s := by
  have ne {d : Char} : startsPlain d = false → c ≠ d := startsPlain_ne plain
  simp [token, noMarker, plain, ne (d := '%') rfl, ne (d := '[') rfl, ne (d := '\x7b') rfl,
    ne (d := ']') rfl, ne (d := '\x7d') rfl, ne (d := ',') rfl, ne (d := '-') rfl,
    ne (d := '?') rfl, ne (d := ':') rfl, ne (d := '*') rfl, ne (d := '&') rfl, ne (d := '!') rfl,
    ne (d := '|') rfl, ne (d := '>') rfl, ne (d := '\'') rfl, ne (d := '"') rfl]

theorem token_plain (allowed : Style.allowsPlain (c :: cs) = true)
    (noMarker : s.cursor.atMarker = false) (block : s.inFlow = false) (t : List Char) :
    token s c (cs ++ t) = plainScalar s := by
  have calm := Style.calm_of_allowsPlain allowed
  have noIndicator : Style.startsAsIndicator (c :: cs) = false := by
    simp only [Style.allowsPlain, Bool.and_eq_true, Bool.not_eq_true'] at allowed
    exact allowed.1.2
  obtain ⟨noSign, open_⟩ : Style.isIndicator c = false ∧
      ((c = '?' ∨ c = ':') ∨ c = '-' → endsWord cs = false) := by
    simpa [Style.startsAsIndicator] using noIndicator
  cases plain : startsPlain c with
  | true => exact token_startsPlain plain noMarker _
  | false =>
    have shown : isSpaceOrBreak c = false := calm.head c rfl
    have sign : (c = '?' ∨ c = ':') ∨ c = '-' := by
      have signs : "-?:,[]\x7b\x7d#&*!|>'\"%@\x60".toList =
        '-' :: '?' :: ':' :: ",[]\x7b\x7d#&*!|>'\"%@\x60".toList := rfl
      simp only [startsPlain, shown, Bool.not_false, Bool.true_and, Bool.not_eq_false',
        List.contains_iff_mem, signs, List.mem_cons] at plain
      rcases plain with h | h | h | h
      · exact .inr h
      · exact .inl (.inl h)
      · exact .inl (.inr h)
      · exact absurd (noSign.symm.trans (List.contains_iff_mem.2 h)) Bool.false_ne_true
    have goesOn : endsWord (cs ++ t) = false :=
      Plain.endsWord_append (u := []) (by simp [endsWord]) (by simpa using open_ sign)
    generalize cs ++ t = after at goesOn ⊢
    have noSpace : after.head?.any isSpace = false := by
      cases after with
      | nil => rfl
      | cons d r => exact (Bool.or_eq_false_iff.1 goesOn).1
    rcases sign with (rfl | rfl) | rfl <;>
      simp [token, noMarker, goesOn, block, noSpace, startsPlain]

end Dispatch

theorem noMarker_key {K : List Char} (noMarker : Style.startsAsMarker K = false) (t : List Char)
    (i l k : Nat) : Cursor.atMarker ⟨K ++ ':' :: t, i, l, k⟩ = false := by
  match K with
  | [] | [_] | [_, _] => simp [Cursor.atMarker]
  | a :: b :: c :: tail =>
    have same : Cursor.atMarker ⟨a :: b :: c :: tail ++ ':' :: t, i, l, k⟩ =
      (decide (k = 0) && Style.startsAsMarker (a :: b :: c :: tail) &&
        endsWord (tail ++ ':' :: t)) := rfl
    rw [same, noMarker]
    simp

def keyTokens (opens : Bool) (name : String) : List Token :=
  (if opens then [.blockMapping] else []) ++ [.key, .scalar name .plain, .value]

def State.afterKey (s : State) (K : List Char) : State :=
  { s with
    cursor := s.cursor.skip K.length
    pieces := .token (.scalar (String.ofList K) .plain) :: .spot s.spots :: s.pieces
    spots := s.spots + 1
    candidates := [some ⟨s.spots, s.cursor.index, s.cursor.line, s.cursor.column,
      decide (s.indent = s.cursor.column)⟩]
    keyAllowed := false }

def State.afterColon (s : State) (K : List Char) : State :=
  { s.afterKey K with
    cursor := (s.cursor.skip K.length).skip 1
    pieces := .token .value :: (s.afterKey K).pieces
    candidates := [none]
    settled := (s.spots, decide (s.indent < s.cursor.column)) :: s.settled
    indent := s.cursor.column
    outer := if s.indent < s.cursor.column then s.indent :: s.outer else s.outer }

theorem dropStale_single {s : State} {k : Candidate} (alone : s.candidates = [some k])
    (fresh : s.isStale k = false) : s.dropStale = some s := by
  obtain ⟨cursor, pieces, spots, settled, indent, outer, candidates, keys⟩ := s
  cases alone
  simp [State.dropStale, fresh]

section Key

variable {s : State} {ts : List Token} {K t : List Char} {column : Nat} {indent : Int}
  {outer : List Int} (stands : Stands s ⟨K ++ ':' :: t, column, indent, outer, 0, true⟩ ts)
  (some_ : K ≠ []) (ends : endsWord t = true) (inside : indent ≤ column)
include stands some_ ends inside

theorem run_key (allowed : Style.allowsPlain K = true) (turns : Nat) :
    run (turns + 1) s = run turns (s.afterKey K) := by
  have block : s.inFlow = false := by simpa using stands.inFlow
  have at_ := stands.cursor
  have noMarker : s.cursor.atMarker = false := by
    simp only [Style.allowsPlain, Bool.and_eq_true, Bool.not_eq_true'] at allowed
    rw [at_]
    exact noMarker_key allowed.1.1.2 t _ _ column
  have text := Plain.read_text (s := ⟨s.indent, s.inFlow⟩) block (.inr ⟨t, rfl, ends⟩)
    (Plain.closes_key block t) some_ (Style.calm_of_allowsPlain allowed) (i := s.cursor.index)
    (l := s.cursor.line) (k := column) (by rw [stands.indent]; exact inside)
    (by rw [at_] at noMarker; exact noMarker)
  have skipped : s.cursor.skip K.length =
      ⟨':' :: t, s.cursor.index + K.length, s.cursor.line, column + K.length⟩ := by
    rw [at_]
    exact Cursor.skip_append ..
  obtain ⟨ks, dropped, keeps⟩ := stands.dropCandidate
  have single : ks.drop 1 = [] := List.drop_eq_nil_of_le (Nat.le_of_eq keeps.depth)
  have block' : State.inFlow { s with candidates := ks } = false := by simpa using keeps.inFlow
  have read : plainScalar s = some (s.afterKey K) := by
    rw [← block, block, ← at_, ← skipped] at text
    rw [plainScalar, State.saveCandidate, if_pos stands.keys, dropped]
    simp only [Option.bind_eq_bind, Option.bind_some, State.setCandidate, single, block']
    have same : State.inFlow { s with
        candidates := [some ⟨s.spots, s.cursor.index, s.cursor.line, s.cursor.column,
          !false && decide (s.indent = s.cursor.column)⟩]
        pieces := .spot s.spots :: s.pieces
        spots := s.spots + 1 } = s.inFlow := block.symm
    rw [same, block, text]
    rfl
  obtain ⟨c, cs, rfl⟩ := List.exists_cons_of_ne_nil some_
  rw [run_succ, stands.skips, stands.calm, Option.bind_some, stands.stays (fun _ => inside),
    stands.rest]
  simp only [List.cons_append, token_plain allowed noMarker block, read, Option.bind_some]

omit some_ in
theorem run_colon (short : K.length ≤ 1024) (turns : Nat) :
    run (turns + 1) (s.afterKey K) = run turns (s.afterColon K) := by
  have at_ := stands.cursor
  have skipped : (s.afterKey K).cursor =
      ⟨':' :: t, s.cursor.index + K.length, s.cursor.line, column + K.length⟩ := by
    rw [State.afterKey, at_]
    exact Cursor.skip_append ..
  have starts : Starts (s.afterKey K).cursor.rest := by
    rw [skipped]
    exact .cons (by decide) _
  have fresh : (s.afterKey K).dropStale = some (s.afterKey K) := by
    refine dropStale_single rfl ?_
    simp [State.isStale, skipped, short]
  have stays : (s.afterKey K).unroll (s.afterKey K).cursor.column = s.afterKey K := by
    refine unroll_level fun _ => ?_
    rw [skipped, State.afterKey, stands.indent]
    change indent ≤ ((column + K.length : Nat) : Int)
    omega
  have noMarker : (s.afterKey K).cursor.atMarker = false := by simp [Cursor.atMarker, skipped]
  have opens : value (s.afterKey K) = some (s.afterColon K) := by
    have front : (s.afterKey K).candidates.head? = some (some ⟨s.spots, s.cursor.index,
      s.cursor.line, s.cursor.column, decide (s.indent = s.cursor.column)⟩) := rfl
    have flow : (s.afterKey K).inFlow = false := rfl
    have same : (s.afterKey K).indent = s.indent := rfl
    simp only [value, front, flow, same, Bool.not_false, Bool.true_and]
    by_cases first : s.indent < s.cursor.column
    · simp only [State.afterColon, first, decide_true, if_true]
      rfl
    · have level : s.indent = s.cursor.column := by
        have := stands.indent
        have := stands.column
        simp only at *
        omega
      simp only [State.afterColon, ← level, Int.lt_irrefl, decide_false, Bool.false_eq_true, if_false]
      rfl
  rw [run_succ, skipBetween_at starts, fresh, Option.bind_some, stays, skipped]
  simp [token, noMarker, ends, opens]

omit some_ ends inside in
theorem keeps_afterColon : Keeps (s.afterColon K) column
    (if indent < column then indent :: outer else outer) 0
    (ts ++ keyTokens (indent < column) (String.ofList K)) where
  indent := congrArg Int.ofNat stands.column
  outer := by
    simp only [State.afterColon]
    rw [stands.indent, stands.column, stands.outer]
  depth := rfl
  harmless := by simp [State.afterColon]
  tokens := by
    have other : ∀ m, .spot m ∈ s.pieces.reverse → m ≠ s.spots := fun m mem =>
      Nat.ne_of_lt (stands.placed m (List.mem_reverse.1 mem))
    have opens : decide (s.indent < s.cursor.column) = decide (indent < column) := by
      rw [stands.indent, stands.column]
    simp only [State.afterColon, State.afterKey, opens, List.reverse_cons, List.append_assoc,
      settle_append, settle_other other, stands.tokens]
    cases decide (indent < column) <;> simp [settle, keyTokens]
  placed n mem := by
    have : n = s.spots ∨ .spot n ∈ s.pieces := by
      simpa [State.afterColon, State.afterKey] using mem
    rcases this with rfl | mem
    · exact Nat.lt_succ_self _
    · exact Nat.lt_succ_of_lt (stands.placed n mem)
  known n mem := by
    rcases List.mem_cons.1 mem with rfl | mem
    · exact Nat.lt_succ_self _
    · exact Nat.lt_succ_of_lt (stands.known n mem)

end Key

def outerAfter (indent : Int) (column : Nat) (outer : List Int) : List Int :=
  if indent < column then indent :: outer else outer

theorem Passes.key {K t : List Char} {column : Nat} {indent : Int} {outer : List Int}
    {rest : List Char} {column' : Nat} {keys : Bool} (some_ : K ≠ [])
    (allowed : Style.allowsPlain K = true) (short : K.length ≤ 1024) (inside : indent ≤ column)
    (ends : endsWord t = true) (shorter : rest.length ≤ t.length)
    (near : ∀ s ts i l, Keeps s column (outerAfter indent column outer) 0 ts →
      s.cursor = ⟨t, i, l, column + K.length + 1⟩ → s.keyAllowed = false →
      Nears s ⟨rest, column', column, outerAfter indent column outer, 0, keys⟩ ts) :
    Passes ⟨K ++ ':' :: t, column, indent, outer, 0, true⟩
      (keyTokens (indent < column) (String.ofList K))
      ⟨rest, column', column, outerAfter indent column outer, 0, keys⟩ := by
  intro s ts stands
  have cursor : (s.afterColon K).cursor =
      ⟨t, s.cursor.index + K.length + 1, s.cursor.line, column + K.length + 1⟩ := by
    rw [State.afterColon, stands.cursor, Cursor.skip_append]
    rfl
  obtain ⟨s', runs, stands'⟩ :=
    (near _ _ _ _ (keeps_afterColon stands) cursor rfl).arrives
  refine ⟨s', ⟨2, ?_, fun n => ?_⟩, stands'⟩
  · have := List.length_pos_iff.2 some_
    rw [stands'.rest, stands.rest]
    simp only [List.length_append, List.length_cons]
    omega
  · rw [run_key stands some_ ends inside allowed, run_colon stands ends inside short, runs]

theorem Passes.key_space {K r : List Char} {column : Nat} {indent : Int} (outer : List Int)
    (some_ : K ≠ []) (allowed : Style.allowsPlain K = true) (short : K.length ≤ 1024)
    (inside : indent ≤ column) (starts : Starts r) :
    Passes ⟨K ++ ':' :: ' ' :: r, column, indent, outer, 0, true⟩
      (keyTokens (indent < column) (String.ofList K))
      ⟨r, column + K.length + 2, column, outerAfter indent column outer, 0, false⟩ :=
  .key some_ allowed short inside rfl (Nat.le_succ _) fun _ _ _ _ keeps cursor keys =>
    .space keeps starts cursor rfl keys

theorem Passes.key_line {K r : List Char} {column : Nat} {indent : Int} (outer : List Int) (m : Nat)
    (some_ : K ≠ []) (allowed : Style.allowsPlain K = true) (short : K.length ≤ 1024)
    (inside : indent ≤ column) (starts : Starts r) :
    Passes ⟨K ++ ':' :: '\n' :: (spaces m ++ r), column, indent, outer, 0, true⟩
      (keyTokens (indent < column) (String.ofList K))
      ⟨r, m, column, outerAfter indent column outer, 0, true⟩ :=
  .key some_ allowed short inside rfl (by simp; omega) fun _ _ _ _ keeps cursor keys =>
    .line keeps starts cursor (by simp)

theorem Keeps.roll {s : State} {indent : Int} {outer : List Int} {ts : List Token}
    (keeps : Keeps s indent outer 0 ts) {column : Nat} (inside : indent ≤ column) (t : Token) :
    Keeps (s.roll column t) column (outerAfter indent column outer) 0
      (ts ++ if indent < column then [t] else []) ∧ (s.roll column t).cursor = s.cursor := by
  have block : s.inFlow = false := by simpa using keeps.inFlow
  have same := keeps.indent
  by_cases opens : indent < column
  · have keeps' := keeps.add t
    simp only [State.roll, block, same, opens, outerAfter, if_true, Bool.not_false, Bool.true_and,
      decide_true]
    exact ⟨{ keeps' with indent := rfl, outer := by rw [← keeps.outer] }, rfl⟩
  · have level : indent = column := by omega
    simp only [State.roll, block, same, opens, outerAfter, if_false, Bool.not_false, Bool.true_and,
      decide_false, Bool.false_eq_true, List.append_nil]
    exact ⟨{ keeps with indent := same.trans level }, trivial⟩

theorem Passes.dash {r : List Char} {column : Nat} {indent : Int} (outer : List Int)
    (inside : indent ≤ column) (starts : Starts r) :
    Passes ⟨'-' :: ' ' :: r, column, indent, outer, 0, true⟩
      ((if indent < column then [.blockSequence] else []) ++ [.blockEntry])
      ⟨r, column + 2, column, outerAfter indent column outer, 0, true⟩ := by
  refine .of_token (c := '-') rfl (fun _ => inside) (by simp only [List.length_cons]; omega) fun s ts stands => ?_
  have block : s.inFlow = false := by simpa using stands.inFlow
  have noMarker : s.cursor.atMarker = false := by
    rw [stands.cursor]
    simp [Cursor.atMarker]
  obtain ⟨rolled, same⟩ := stands.roll inside .blockSequence
  obtain ⟨ks, dropped, keeps⟩ := rolled.dropCandidate
  have added := ((keeps.allow true).add .blockEntry).move (s.cursor.skip 1)
  rw [List.append_assoc] at added
  have cursor : s.cursor.skip 1 = ⟨' ' :: r, s.cursor.index + 1, s.cursor.line, column + 1⟩ := by
    rw [stands.cursor]
    rfl
  refine ⟨_, ?_, .space added starts cursor rfl rfl⟩
  have keys : s.keyAllowed = true := stands.keys
  have here : s.cursor.column = column := stands.column
  have ends : endsWord (' ' :: r) = true := rfl
  simp [token, noMarker, ends, blockEntry, block, keys, here, dropped, same]

section Scalars

variable {s : State} {r : List Char} {column d : Nat} {indent : Int} {outer : List Int}
  {keys : Bool}

theorem Starts.shown (starts : Starts r) : ∀ c ∈ r.head?, isSpaceOrBreak c = false :=
  fun c head => (starts c head).1

theorem Passes.plain {cs : List Char} (some_ : cs ≠ []) (allowed : Style.allowsPlain cs = true)
    (within : indent < column) (further : d ≤ indent) (starts : Starts r) :
    Passes ⟨cs ++ '\n' :: (spaces d ++ r), column, indent, outer, 0, keys⟩
      [.scalar (String.ofList cs) .plain] ⟨r, d, indent, outer, 0, true⟩ := by
  obtain ⟨c, cs, rfl⟩ := List.exists_cons_of_ne_nil some_
  refine .of_token (c := c) rfl (fun _ => Int.le_of_lt within) (by simp; omega)
    fun s ts stands => ?_
  obtain ⟨s', saved, keeps, same⟩ := stands.saveCandidate fun _ => by
    rw [stands.column]
    exact Int.ne_of_lt within
  have block : s.inFlow = false := by simpa using stands.inFlow
  have block' : s'.inFlow = false := by simpa using keeps.inFlow
  have inLine : 0 < column := by omega
  have noMarker : s.cursor.atMarker = false := by
    rw [stands.cursor]
    exact Quoted.noMarker_inLine inLine
  have text := Plain.read_text (s := ⟨indent, false⟩) rfl (.inl rfl)
    (Plain.closes_line rfl starts.shown further) some_ (Style.calm_of_allowsPlain allowed)
    (i := s.cursor.index) (l := s.cursor.line) (Int.le_of_lt within)
    (Quoted.noMarker_inLine inLine)
  have read : plainScalar s = some (((s'.allow true).add
      (.scalar (String.ofList (c :: cs)) .plain)).move ⟨r, s.cursor.index + (c :: cs).length + 1 + d,
        s.cursor.line + 1, d⟩) := by
    have indented : s'.indent = indent := keeps.indent
    have at_ : s'.cursor = ⟨c :: cs ++ '\n' :: (spaces d ++ r), s.cursor.index, s.cursor.line,
      column⟩ := same.trans stands.cursor
    simp only [plainScalar, saved, Option.bind_eq_bind, Option.bind_some, indented, block', at_, text]
  exact ⟨_, (token_plain allowed noMarker block _).trans read,
    .here (((keeps.allow true).add _).move _) starts rfl rfl⟩

theorem Passes.quoted (double : Bool) {body cs : List Char}
    (within : indent < column) (starts : Starts r) (long : r.length < body.length)
    (read : ∀ i l k, ∃ i' l' k', Quoted.read double
      ⟨(if double then '"' else '\'') :: body, i, l, k⟩ =
        some (cs, ⟨'\n' :: (spaces d ++ r), i', l', k'⟩)) :
    Passes ⟨(if double then '"' else '\'') :: body, column, indent, outer, 0, keys⟩
      [.scalar (String.ofList cs) .quoted] ⟨r, d, indent, outer, 0, true⟩ := by
  refine .of_token (c := if double then '"' else '\'') rfl (fun _ => Int.le_of_lt within)
    (by simp; omega) fun s ts stands => ?_
  obtain ⟨s', saved, keeps, same⟩ := stands.saveCandidate fun _ => by
    rw [stands.column]
    exact Int.ne_of_lt within
  obtain ⟨i', l', k', read⟩ := read s.cursor.index s.cursor.line column
  have at_ : s'.cursor = ⟨(if double then '"' else '\'') :: body, s.cursor.index, s.cursor.line,
    column⟩ := same.trans stands.cursor
  have scalar : quotedScalar s double = some (((s'.allow false).add
      (.scalar (String.ofList cs) .quoted)).move ⟨'\n' :: (spaces d ++ r), i', l', k'⟩) := by
    simp only [quotedScalar, saved, Option.bind_eq_bind, Option.bind_some, at_, read]
  have noMarker : s.cursor.atMarker = false := by
    rw [stands.cursor]
    cases double <;> simp [Cursor.atMarker]
  refine ⟨_, Eq.trans ?_ scalar, .line (((keeps.allow false).add _).move _) starts rfl (by simp)⟩
  cases double <;> simp [token, noMarker]

theorem Passes.double (cs : List Char) (within : indent < column) (starts : Starts r) :
    Passes ⟨'"' :: (Quoted.doubleBody cs ++ '"' :: '\n' :: (spaces d ++ r)), column, indent, outer,
      0, keys⟩ [.scalar (String.ofList cs) .quoted] ⟨r, d, indent, outer, 0, true⟩ :=
  .quoted true within starts (by simp; omega) fun i l k =>
    ⟨_, _, _, Quoted.read_double cs _ i l k⟩

theorem Passes.single {cs : List Char} {n : Nat} (indented : 0 < n) (apart : Quoted.Apart cs)
    (within : indent < column) (starts : Starts r) :
    Passes ⟨'\'' :: (singleBody n false cs ++ '\'' :: '\n' :: (spaces d ++ r)), column, indent,
      outer, 0, keys⟩ [.scalar (String.ofList cs) .quoted] ⟨r, d, indent, outer, 0, true⟩ :=
  .quoted false within starts (by simp; omega) fun i l k =>
    have ⟨i', l', k', _, _, read⟩ := Quoted.read_single indented apart (by simp) i l k
    ⟨i', l', k', read⟩

theorem Passes.literal {cs : List Char} {p : Nat} (some_ : cs ≠ [])
    (own : ∀ c ∈ cs, isBreak c = true → Cursor.IsOwnBreak c) (within : p < column) (further : d ≤ p)
    (starts : Starts r) :
    Passes ⟨'|' :: (literalHints cs ++ '\n' :: (literalBody (p + 2) true cs ++ (literalEnd cs ++
      (spaces d ++ r)))), column, p, outer, 0, keys⟩ [.scalar (String.ofList cs) .literal]
      ⟨r, d, p, outer, 0, true⟩ := by
  refine .of_token (c := '|') rfl (fun _ => Int.ofNat_le.2 (Nat.le_of_lt within))
    (by simp only [List.length_append, List.length_cons]; omega) fun s ts stands => ?_
  obtain ⟨ks, dropped, keeps⟩ := stands.dropCandidate
  obtain ⟨i', l', _, read⟩ := Block.read_literal (p := p) further starts.shown some_ own
    s.cursor.index s.cursor.line column
  have block : s.inFlow = false := by simpa using stands.inFlow
  have noMarker : s.cursor.atMarker = false := by
    rw [stands.cursor]
    simp [Cursor.atMarker]
  have indented : s.indent = p := stands.indent
  have at_ := stands.cursor
  have scalar : blockScalar s true = some (((State.allow { s with candidates := ks } true).add
      (.scalar (String.ofList cs) .literal)).move ⟨r, i', l', d⟩) := by
    rw [← at_] at read
    simp only [blockScalar, dropped, Option.bind_eq_bind, Option.bind_some, indented, read]
    rfl
  refine ⟨_, Eq.trans ?_ scalar, .here (((keeps.allow true).add _).move _) starts rfl rfl⟩
  simp [token, noMarker, block]

end Scalars

section Flow

variable {r : List Char} {column d : Nat} {indent : Int} {outer : List Int} {keys : Bool}

inductive IsOpening : Char → Token → Prop
  | sequence : IsOpening '[' .flowSequence
  | mapping : IsOpening '\x7b' .flowMapping

inductive IsClosing : Char → Token → Prop
  | sequence : IsClosing ']' .flowSequenceEnd
  | mapping : IsClosing '\x7d' .flowMappingEnd

theorem Passes.flowOpen {c : Char} {t : Token} (opening : IsOpening c t) (within : indent < column)
    (starts : Starts r) : Passes ⟨c :: r, column, indent, outer, 0, keys⟩ [t]
      ⟨r, column + 1, indent, outer, 1, true⟩ := by
  refine .of_token (c := c) rfl (fun _ => Int.le_of_lt within) (by simp) fun s ts stands => ?_
  obtain ⟨s', saved, keeps, same⟩ := stands.saveCandidate fun _ => by
    rw [stands.column]
    exact Int.ne_of_lt within
  have noMarker : s.cursor.atMarker = false := by
    rw [stands.cursor]
    cases opening <;> simp [Cursor.atMarker]
  have deeper : Keeps { s' with candidates := none :: s'.candidates } indent outer 1 ts :=
    { keeps with
      depth := by simp [keeps.depth]
      harmless := fun k mem => by
        rcases List.mem_cons.1 mem with rfl | mem
        · exact fun c none_ => absurd none_ (Option.not_mem_none c)
        · exact keeps.harmless k mem }
  have opened : flowStart s t = some (((State.allow { s' with
      candidates := none :: s'.candidates } true).add t).move (s'.cursor.skip 1)) := by
    simp only [flowStart, saved, Option.bind_eq_bind, Option.bind_some]
  have cursor : s'.cursor.skip 1 = ⟨r, s.cursor.index + 1, s.cursor.line, column + 1⟩ := by
    rw [same, stands.cursor]
    rfl
  refine ⟨_, Eq.trans ?_ opened, .here (((deeper.allow true).add t).move _) starts cursor rfl⟩
  cases opening <;> simp [token, noMarker]

theorem Passes.flowClose {c : Char} {t : Token} (closing : IsClosing c t) (starts : Starts r) :
    Passes ⟨c :: '\n' :: (spaces d ++ r), column, indent, outer, 1, keys⟩ [t]
      ⟨r, d, indent, outer, 0, true⟩ := by
  refine .of_token (c := c) rfl nofun (by simp; omega) fun s ts stands => ?_
  obtain ⟨ks, dropped, keeps⟩ := stands.dropCandidate
  have flow : State.inFlow { s with candidates := ks } = true := by simpa using keeps.inFlow
  have noMarker : s.cursor.atMarker = false := by
    rw [stands.cursor]
    cases closing <;> simp [Cursor.atMarker]
  have outward : Keeps { s with candidates := ks.drop 1 } indent outer 0 ts :=
    { keeps with
      depth := by simpa using keeps.depth
      harmless := fun k mem => keeps.harmless k (List.mem_of_mem_drop mem) }
  have closed : flowEnd s t = some (((State.allow { s with candidates := ks.drop 1 } false).add
      t).move (s.cursor.skip 1)) := by
    simp only [flowEnd, dropped, Option.bind_eq_bind, Option.bind_some, flow, if_true]
  have cursor : s.cursor.skip 1 =
      ⟨'\n' :: (spaces d ++ r), s.cursor.index + 1, s.cursor.line, column + 1⟩ := by
    rw [stands.cursor]
    rfl
  refine ⟨_, Eq.trans ?_ closed, .line (((outward.allow false).add t).move _) starts cursor
    (by simp)⟩
  cases closing <;> simp [token, noMarker]

theorem Passes.flowComma (starts : Starts r) :
    Passes ⟨',' :: ' ' :: r, column, indent, outer, 1, keys⟩ [.flowEntry]
      ⟨r, column + 2, indent, outer, 1, true⟩ := by
  refine .of_token (c := ',') rfl nofun (by simp only [List.length_cons]; omega) fun s ts stands => ?_
  obtain ⟨ks, dropped, keeps⟩ := stands.dropCandidate
  have noMarker : s.cursor.atMarker = false := by
    rw [stands.cursor]
    simp [Cursor.atMarker]
  have entered : flowEntry s = some (((State.allow { s with candidates := ks } true).add
      .flowEntry).move (s.cursor.skip 1)) := by
    simp only [flowEntry, dropped, Option.bind_eq_bind, Option.bind_some]
  have cursor : s.cursor.skip 1 = ⟨' ' :: r, s.cursor.index + 1, s.cursor.line, column + 1⟩ := by
    rw [stands.cursor]
    rfl
  refine ⟨_, Eq.trans ?_ entered, .space (((keeps.allow true).add _).move _) starts cursor rfl rfl⟩
  simp [token, noMarker]

theorem range_alphanum {c : Char} (letter : c.isAlphanum = true) :
    0x30 ≤ c.toNat ∧ c.toNat ≤ 0x7A := by
  have ranges : (decide (c.val ≥ 'A'.val ∧ c.val ≤ 'Z'.val) ||
      (decide (c.val ≥ 'a'.val) && decide (c.val ≤ 'z'.val)) ||
      (decide (c.val ≥ '0'.val) && decide (c.val ≤ '9'.val))) = true := letter
  have ends : ['A', 'Z', 'a', 'z', '0', '9'].map (·.val.toNat) = [0x41, 0x5A, 0x61, 0x7A, 0x30, 0x39] :=
    rfl
  simp only [Bool.or_eq_true, Bool.and_eq_true, decide_eq_true_eq, ge_iff_le,
    UInt32.le_iff_toNat_le] at ranges
  simp only [List.map_cons, List.map_nil, List.cons.injEq, and_true] at ends
  have value : c.toNat = c.val.toNat := rfl
  omega

theorem not_contains_alphanum {signs : List Char} (apart : signs.all (!·.isAlphanum) = true)
    {c : Char} (letter : c.isAlphanum = true) : signs.contains c = false := by
  cases sign : signs.contains c with
  | false => rfl
  | true =>
    have other := List.all_eq_true.1 apart c (List.contains_iff_mem.1 sign)
    simp [letter] at other

theorem startsPlain_alphanum {c : Char} (letter : c.isAlphanum = true) : startsPlain c = true := by
  have noBlank : isSpaceOrBreak c = false := by
    cases blank : isSpaceOrBreak c with
    | false => rfl
    | true =>
      simp only [isSpaceOrBreak, isSpace, isBreak, Bool.or_eq_true, decide_eq_true_eq] at blank
      rcases blank with (rfl | rfl) | (((rfl | rfl) | rfl) | rfl) | rfl <;>
        exact absurd letter (by decide)
  have noSign : "-?:,[]\x7b\x7d#&*!|>'\"%@\x60".toList.contains c = false :=
    not_contains_alphanum (by decide) letter
  simp only [startsPlain, noBlank, noSign]
  rfl

theorem noSign_alphanum {c : Char} (letter : c.isAlphanum = true) :
    isSpaceOrBreak c = false ∧ c ≠ ':' ∧ c ≠ '#' ∧ Plain.isFlowMark c = false := by
  have plain := startsPlain_alphanum letter
  have ne {d : Char} : startsPlain d = false → c ≠ d := startsPlain_ne plain
  refine ⟨?_, ne rfl, ne rfl, ?_⟩
  · simpa using (Bool.and_eq_true_iff.1 plain).1
  · simp [Plain.isFlowMark, ne (d := ',') rfl, ne (d := '[') rfl, ne (d := ']') rfl,
      ne (d := '\x7b') rfl, ne (d := '\x7d') rfl]

def EndsFlow (t : List Char) : Prop := ∃ c r, t = c :: r ∧ (c = ',' ∨ c = ']')

theorem word_inFlow {w t : List Char} (letters : ∀ c ∈ w, c.isAlphanum = true)
    (ends : EndsFlow t) : Plain.word true (w ++ t) = some w := by
  induction w with
  | nil => obtain ⟨c, r, rfl, rfl | rfl⟩ := ends <;> rfl
  | cons c w ih =>
    obtain ⟨shown, noColon, -, noMark⟩ := noSign_alphanum (letters c List.mem_cons_self)
    have rest := ih fun d mem => letters d (List.mem_cons_of_mem _ mem)
    simp [Plain.word, shown, noColon, noMark, rest]

theorem read_inFlow {w t : List Char} (some_ : w ≠ []) (letters : ∀ c ∈ w, c.isAlphanum = true)
    (ends : EndsFlow t) (indent : Int) (i l k : Nat) :
    Plain.read ⟨indent, true⟩ ⟨w ++ t, i, l, k⟩ =
      some (w, false, ⟨t, i + w.length, l, k + w.length⟩) := by
  obtain ⟨c, w, rfl⟩ := List.exists_cons_of_ne_nil some_
  obtain ⟨shown, -, noComment, -⟩ := noSign_alphanum (letters c List.mem_cons_self)
  have word := word_inFlow letters ends
  have start : (Cursor.atMarker ⟨c :: w ++ t, i, l, k⟩ ||
      Cursor.peekIs ⟨c :: w ++ t, i, l, k⟩ (· = '#')) = false := by
    have noDash : c ≠ '-' := by rintro rfl; exact nomatch letters _ List.mem_cons_self
    have noDot : c ≠ '.' := by rintro rfl; exact nomatch letters _ List.mem_cons_self
    simp [Cursor.atMarker, Cursor.peekIs, noDash, noDot, noComment]
  have stop : ∀ d ∈ t.head?, isSpaceOrBreak d = false := by
    obtain ⟨d, r, rfl, rfl | rfl⟩ := ends <;> simp [isSpaceOrBreak] <;> decide
  have noSpace : Cursor.peekIs ⟨t, i + (c :: w).length, l, k + (c :: w).length⟩ isSpaceOrBreak =
      false := by
    obtain ⟨d, r, rfl, rfl | rfl⟩ := ends <;> rfl
  rw [Plain.read, Plain.words]
  simp only [start, word, Cursor.skip_append, Gap.read_stop stop, noSpace]
  rfl

theorem Passes.flowWord {w t : List Char} (some_ : w ≠ []) (letters : ∀ c ∈ w, c.isAlphanum = true)
    (ends : EndsFlow t) : Passes ⟨w ++ t, column, indent, outer, 1, keys⟩
      [.scalar (String.ofList w) .plain] ⟨t, column + w.length, indent, outer, 1, false⟩ := by
  obtain ⟨c, w, rfl⟩ := List.exists_cons_of_ne_nil some_
  have shorter : t.length < (c :: w ++ t).length := by
    simp only [List.length_append, List.length_cons]
    omega
  refine .of_token (c := c) rfl nofun shorter fun s ts stands => ?_
  obtain ⟨s', saved, keeps, same⟩ := stands.saveCandidate nofun
  have letter := letters c List.mem_cons_self
  have noMarker : s.cursor.atMarker = false := by
    have noDash : c ≠ '-' := by rintro rfl; exact nomatch letter
    have noDot : c ≠ '.' := by rintro rfl; exact nomatch letter
    rw [stands.cursor]
    simp [Cursor.atMarker, noDash, noDot]
  have text := read_inFlow some_ letters ends indent s.cursor.index s.cursor.line column
  have starts : Starts t := by
    obtain ⟨d, r, rfl, rfl | rfl⟩ := ends <;> exact .cons (by decide) _
  have indented : s'.indent = indent := keeps.indent
  have flow : s'.inFlow = true := by simpa using keeps.inFlow
  have at_ : s'.cursor = ⟨c :: w ++ t, s.cursor.index, s.cursor.line, column⟩ :=
    same.trans stands.cursor
  have read : plainScalar s = some (((s'.allow false).add
      (.scalar (String.ofList (c :: w)) .plain)).move ⟨t, s.cursor.index + (c :: w).length,
        s.cursor.line, column + (c :: w).length⟩) := by
    simp only [plainScalar, saved, Option.bind_eq_bind, Option.bind_some, indented, flow, at_, text]
  exact ⟨_, (token_startsPlain (startsPlain_alphanum letter) noMarker _).trans read,
    .here (((keeps.allow false).add _).move _) starts rfl rfl⟩

end Flow

theorem Passes.documentStart {r : List Char} (starts : Starts r) :
    Passes ⟨'-' :: '-' :: '-' :: '\n' :: r, 0, -1, [], 0, true⟩ [.documentStart]
      ⟨r, 0, -1, [], 0, true⟩ := by
  refine .of_token (c := '-') rfl (by simp) (by simp; omega) fun s ts stands => ?_
  obtain ⟨ks, dropped, keeps⟩ := stands.dropCandidate
  have level : s.unroll (-1) = s := unroll_outside stands.outer _
  have marker : s.cursor.atMarker = true := by
    rw [stands.cursor]
    rfl
  have started : documentMarker s .documentStart = some (((State.allow { s with
      candidates := ks } false).add .documentStart).move (s.cursor.skip 3)) := by
    simp only [documentMarker, level, dropped, Option.bind_eq_bind, Option.bind_some]
  have cursor : s.cursor.skip 3 = ⟨'\n' :: (spaces 0 ++ r), s.cursor.index + 3, s.cursor.line, 3⟩ := by
    rw [stands.cursor]
    rfl
  refine ⟨_, Eq.trans ?_ started, .line (((keeps.allow false).add _).move _) starts cursor
    (by simp)⟩
  simp [token, marker]

theorem tokens?_of_passes {text : List Char} {ts : List Token}
    (allowed : text.all isAllowed = true) (starts : Starts text)
    (passes : Passes ⟨text, 0, -1, [], 0, true⟩ ts ⟨[], 0, 0, [-1], 0, true⟩) :
    tokens? text = some (ts ++ [.blockEnd]) := by
  have stands : Stands (State.start text) ⟨text, 0, -1, [], 0, true⟩ [] :=
    { indent := rfl
      outer := rfl
      depth := rfl
      harmless := by simp [State.start]
      tokens := rfl
      placed := by simp [State.start]
      known := by simp [State.start]
      rest := rfl
      column := rfl
      keys := rfl
      starts := starts
      calm := by simp [State.dropStale, State.start] }
  obtain ⟨s, ⟨k, shorter, runs⟩, stands⟩ := passes _ _ stands
  have ended := stands.rest
  obtain ⟨n, length⟩ : ∃ n, text.length = n + k := ⟨text.length - k, by
    have : (State.start text).cursor.rest.length = text.length := rfl
    omega⟩
  let s' : State := { s.add .blockEnd with indent := -1, outer := [] }
  have closed : s.unroll (-1) = s' := by
    have block : s.inFlow = false := by simpa using stands.inFlow
    have outer : s.outer = [-1] := stands.outer
    have indent : s.indent = 0 := stands.indent
    simp [State.unroll, State.unrollFrom, block, outer, indent, s']
  have keeps' : Keeps s' (-1) [] 0 (ts ++ [.blockEnd]) :=
    { stands.toKeeps.add .blockEnd with indent := rfl, outer := rfl }
  obtain ⟨ks, dropped, keeps⟩ := keeps'.dropCandidate
  have last : run (n + 1) s = some { s' with candidates := ks } := by
    rw [run_succ, stands.skips, stands.calm, Option.bind_some, stands.stays (fun _ => Int.le_refl _),
      ended]
    simp only [closed, dropped]
  have all : run (text.length + 1) (.start text) = some { s' with candidates := ks } := by
    rw [length, Nat.add_right_comm, runs, last]
  have settled := keeps.tokens
  simp only at settled
  simp [tokens?, allowed, all, settled]

end LedgerBroker.Yaml.Lexer
