import LedgerBroker.Proofs.ScalarReading
import LedgerBroker.Yaml.Lexer

/-!
`Stands` says at which position a state is and which tokens lie behind it, `Passes` that the lexer
gets from one position to another and adds some tokens on the way. The candidates of a state are
harmless: none has to be a key, so any of them can be dropped.
-/

set_option autoImplicit false

namespace LedgerBroker.Yaml.Lexer

open State

theorem settle_append (settled : List (Nat × Bool)) (ps qs : List Piece) :
    settle settled (ps ++ qs) = settle settled ps ++ settle settled qs := by
  induction ps with
  | nil => rfl
  | cons p ps ih =>
    cases p with
    | token t => exact congrArg (t :: ·) ih
    | spot n =>
      simp only [List.cons_append, settle]
      cases settled.lookup n with
      | none => exact ih
      | some opens => cases opens <;> simp [ih]

theorem settle_other {settled : List (Nat × Bool)} {n : Nat} {opens : Bool} {ps : List Piece}
    (other : ∀ m, .spot m ∈ ps → m ≠ n) : settle ((n, opens) :: settled) ps = settle settled ps := by
  induction ps with
  | nil => rfl
  | cons p ps ih =>
    have others := ih fun m mem => other m (List.mem_cons_of_mem _ mem)
    cases p with
    | token t => exact congrArg (t :: ·) others
    | spot m =>
      have differs : (m == n) = false := by simpa using other m List.mem_cons_self
      simp only [settle, List.lookup_cons, differs, others]

structure Keeps (s : State) (indent : Int) (outer : List Int) (depth : Nat) (ts : List Token) :
    Prop where
  indent : s.indent = indent
  outer : s.outer = outer
  depth : s.candidates.length = depth + 1
  harmless : ∀ k ∈ s.candidates, ∀ c ∈ k, c.required = false
  tokens : settle s.settled s.pieces.reverse = ts
  placed : ∀ n, .spot n ∈ s.pieces → n < s.spots
  known : ∀ n ∈ s.settled.map (·.1), n < s.spots

structure Position where
  rest : List Char
  column : Nat
  indent : Int
  outer : List Int
  depth : Nat := 0
  keys : Bool

def Starts (t : List Char) : Prop :=
  ∀ c ∈ t.head?, isSpaceOrBreak c = false ∧ c ≠ '#' ∧ c ≠ '\uFEFF'

theorem Starts.cons {c : Char} (shown : isSpaceOrBreak c = false ∧ c ≠ '#' ∧ c ≠ '\uFEFF')
    (t : List Char) : Starts (c :: t) := by
  intro d head
  obtain rfl : c = d := by simpa using head
  exact shown

structure Stands (s : State) (p : Position) (ts : List Token) : Prop extends
    Keeps s p.indent p.outer p.depth ts where
  rest : s.cursor.rest = p.rest
  column : s.cursor.column = p.column
  keys : s.keyAllowed = p.keys
  starts : Starts p.rest
  calm : s.dropStale = some s

/-- The lexer goes on from the second state as it does from the first, some turns later. -/
def Leads (s s' : State) : Prop :=
  ∃ k, s'.cursor.rest.length + k ≤ s.cursor.rest.length ∧ ∀ n, run (n + k) s = run n s'

def Passes (p : Position) (new : List Token) (q : Position) : Prop :=
  ∀ s ts, Stands s p ts → ∃ s', Leads s s' ∧ Stands s' q (ts ++ new)

theorem Leads.refl (s : State) : Leads s s := ⟨0, Nat.le_refl _, fun _ => rfl⟩

theorem Leads.trans {s s' s'' : State} (first : Leads s s') (later : Leads s' s'') :
    Leads s s'' := by
  obtain ⟨k, le, run⟩ := first
  obtain ⟨k', le', run'⟩ := later
  refine ⟨k' + k, by omega, fun n => ?_⟩
  rw [← Nat.add_assoc, run, run']

theorem Passes.refl (p : Position) : Passes p [] p :=
  fun s _ stands => ⟨s, .refl s, by simpa using stands⟩

theorem Passes.trans {p q r : Position} {new later : List Token} (first : Passes p new q)
    (second : Passes q later r) : Passes p (new ++ later) r := by
  intro s ts stands
  obtain ⟨s', leads, stands'⟩ := first s ts stands
  obtain ⟨s'', leads', stands''⟩ := second s' _ stands'
  exact ⟨s'', leads.trans leads', by simpa using stands''⟩

section Skipping

variable {s : State} {t : List Char} (starts : Starts t)
include starts

theorem Starts.peek {p : Char → Bool}
    (differs : ∀ c, isSpaceOrBreak c = false → c ≠ '#' → c ≠ '\uFEFF' → p c = false)
    (i l k : Nat) : Cursor.peekIs ⟨t, i, l, k⟩ p = false := by
  cases t with
  | nil => rfl
  | cons c t =>
    obtain ⟨shown, noComment, noMark⟩ := starts c rfl
    exact differs c shown noComment noMark

theorem skipBetween_spaces (n i l k turns : Nat) :
    skipBetween (turns + 1) (s.move ⟨spaces n ++ t, i, l, k⟩) = s.move ⟨t, i + n, l, k + n⟩ := by
  have noMark : Cursor.peekIs ⟨spaces n ++ t, i, l, k⟩ (· = '\uFEFF') = false := by
    cases n with
    | zero => exact starts.peek (fun c _ _ noMark => by simpa using noMark) i l k
    | succ n => rfl
  have run (tabs : Bool) : (spaces n ++ t).takeWhile (fun d => d = ' ' || (tabs && d = '\t')) =
      spaces n := by
    have none_ : t.takeWhile (fun d => d = ' ' || (tabs && d = '\t')) = [] := by
      cases t with
      | nil => rfl
      | cons c t =>
        have shown : isSpaceOrBreak c = false := (starts c rfl).1
        have noSpace : c ≠ ' ' := by rintro rfl; exact nomatch shown
        have noTab : c ≠ '\t' := by rintro rfl; exact nomatch shown
        simp [noSpace, noTab]
    rw [List.takeWhile_append_of_pos (by simp [spaces]), none_, List.append_nil]
  have moved := Cursor.skip_append (spaces n) t i l k
  have noComment := starts.peek (p := (· = '#')) (fun c _ no _ => by simpa using no) (i + n) l (k + n)
  have noBreak := starts.peek (p := isBreak)
    (fun c shown _ _ => (Bool.or_eq_false_iff.1 shown).2) (i + n) l (k + n)
  rw [length_spaces] at moved
  simp only [skipBetween, State.move, noMark, Bool.and_false, Bool.false_eq_true, if_false,
    Cursor.skipWhile, run, length_spaces, moved, Cursor.skipComment, noComment, noBreak]

theorem skipBetween_line (n i l k turns : Nat) :
    skipBetween (turns + 2) (s.move ⟨'\n' :: (spaces n ++ t), i, l, k⟩) =
      (s.move ⟨t, i + 1 + n, l + 1, n⟩).allow (s.keyAllowed || !s.inFlow) := by
  have after := skipBetween_spaces (s := s.allow (s.keyAllowed || !s.inFlow)) starts n (i + 1)
    (l + 1) 0 turns
  have noMark : Cursor.peekIs ⟨'\n' :: (spaces n ++ t), i, l, k⟩ (· = '\uFEFF') = false := rfl
  have noSpace (tabs : Bool) : ('\n' :: (spaces n ++ t)).takeWhile
      (fun d => d = ' ' || (tabs && d = '\t')) = [] := by cases tabs <;> rfl
  have noComment : Cursor.peekIs ⟨'\n' :: (spaces n ++ t), i, l, k⟩ (· = '#') = false := rfl
  have broken : Cursor.peekIs ⟨'\n' :: (spaces n ++ t), i, l, k⟩ isBreak = true := rfl
  rw [skipBetween]
  simp only [State.move, noMark, Bool.and_false, Bool.false_eq_true, if_false, Cursor.skipWhile,
    noSpace, List.length_nil, Cursor.skip, List.drop_zero, Nat.add_zero, Cursor.skipComment,
    noComment, broken, if_true]
  rw [Nat.zero_add] at after
  exact after

end Skipping

theorem skipBetween_at {s : State} (starts : Starts s.cursor.rest) :
    skipBetween (s.cursor.rest.length + 1) s = s := by
  have skipped := skipBetween_spaces (s := s) starts 0 s.cursor.index s.cursor.line
    s.cursor.column s.cursor.rest.length
  simp only [spaces, List.replicate_zero, List.nil_append, Nat.add_zero] at skipped
  exact skipped

theorem unroll_level {s : State} {k : Nat} (level : s.inFlow = false → s.indent ≤ k) :
    s.unroll k = s := by
  have stays : ∀ outer : List Int, s.indent ≤ k → unrollFrom k outer s = s := by
    intro outer inside
    cases outer with
    | nil => rfl
    | cons o os => simp [unrollFrom, Int.not_lt.2 inside]
  cases flow : s.inFlow with
  | true => simp [State.unroll, flow]
  | false => simpa [State.unroll, flow] using stays s.outer (level flow)

theorem unroll_outside {s : State} (outside : s.outer = []) (k : Int) : s.unroll k = s := by
  simp [State.unroll, outside, unrollFrom]

section Keeping

variable {s : State} {indent : Int} {outer : List Int} {depth : Nat} {ts : List Token}
  (keeps : Keeps s indent outer depth ts)
include keeps

theorem Keeps.inFlow : s.inFlow = decide (0 < depth) := by
  simp [State.inFlow, keeps.depth]

theorem Keeps.add (t : Token) : Keeps (s.add t) indent outer depth (ts ++ [t]) where
  indent := keeps.indent
  outer := keeps.outer
  depth := keeps.depth
  harmless := keeps.harmless
  tokens := by simp [State.add, settle_append, keeps.tokens, settle]
  placed n mem := keeps.placed n (by simpa [State.add] using mem)
  known := keeps.known

theorem Keeps.move (c : Cursor) : Keeps (s.move c) indent outer depth ts := { keeps with }

theorem Keeps.allow (keys : Bool) : Keeps (s.allow keys) indent outer depth ts := { keeps with }

theorem Keeps.candidates {ks : List (Option Candidate)} (length : ks.length = depth + 1)
    (harmless : ∀ k ∈ ks, ∀ c ∈ k, c.required = false) :
    Keeps { s with candidates := ks } indent outer depth ts :=
  { keeps with depth := length, harmless := harmless }

theorem Keeps.dropStale : ∃ ks, s.dropStale = some { s with candidates := ks } ∧
    Keeps { s with candidates := ks } indent outer depth ts ∧
    State.dropStale { s with candidates := ks } = some { s with candidates := ks } := by
  let drop (k : Option Candidate) : Option Candidate := if k.any s.isStale then none else k
  have harmless : ∀ k ∈ s.candidates.map drop, ∀ c ∈ k, c.required = false := by
    intro k mem c has
    obtain ⟨k', mem', rfl⟩ := List.mem_map.1 mem
    simp only [drop] at has
    split at has
    · cases has
    · exact keeps.harmless k' mem' c has
  have noneRequired {ks : List (Option Candidate)} (calm : ∀ k ∈ ks, ∀ c ∈ k, c.required = false)
      (stale : Option Candidate → Bool) : (ks.any fun k => stale k && k.any (·.required)) = false := by
    rw [List.any_eq_false]
    intro k mem
    cases k with
    | none => simp
    | some c => simp [calm _ mem c rfl]
  have twice : ∀ k, drop (drop k) = drop k := by
    intro k
    simp only [drop]
    split <;> simp_all
  refine ⟨s.candidates.map drop, ?_, keeps.candidates (by simpa using keeps.depth) harmless, ?_⟩
  · rw [State.dropStale, noneRequired keeps.harmless]
    rfl
  · rw [State.dropStale, noneRequired harmless]
    have same : (s.candidates.map drop).map drop = s.candidates.map drop := by
      simp [Function.comp_def, twice]
    exact congrArg (fun ks => some { s with candidates := ks }) same

theorem Keeps.setCandidate {k : Option Candidate} (harmless : ∀ c ∈ k, c.required = false) :
    Keeps (s.setCandidate k) indent outer depth ts := by
  refine keeps.candidates (by simp [keeps.depth]) fun k' mem => ?_
  rcases List.mem_cons.1 mem with rfl | mem
  · exact harmless
  · exact keeps.harmless k' (List.mem_of_mem_drop mem)

theorem Keeps.dropCandidate : ∃ ks, s.dropCandidate = some { s with candidates := ks } ∧
    Keeps { s with candidates := ks } indent outer depth ts := by
  have same : Keeps { s with candidates := s.candidates } indent outer depth ts := keeps
  match front : s.candidates.head? with
  | some (some k) =>
    have free : k.required = false := keeps.harmless _ (List.mem_of_mem_head? front) k rfl
    exact ⟨none :: s.candidates.drop 1, by simp [State.dropCandidate, front, free, State.setCandidate],
      keeps.setCandidate nofun⟩
  | some none | none => exact ⟨s.candidates, by simp [State.dropCandidate, front], same⟩

theorem Keeps.addSpot {k : Option Candidate} (harmless : ∀ c ∈ k, c.required = false) :
    Keeps { s.setCandidate k with pieces := .spot s.spots :: s.pieces, spots := s.spots + 1 }
      indent outer depth ts where
  indent := keeps.indent
  outer := keeps.outer
  depth := (keeps.setCandidate harmless).depth
  harmless := (keeps.setCandidate harmless).harmless
  tokens := by
    have unknown : s.settled.lookup s.spots = none := by
      rw [List.lookup_eq_none_iff]
      intro e mem
      have := keeps.known e.1 (List.mem_map_of_mem mem)
      simp
      omega
    simp [State.setCandidate, settle_append, keeps.tokens, settle, unknown]
  placed n mem := by
    rcases List.mem_cons.1 mem with same | mem
    · cases same
      exact Nat.lt_succ_self _
    · exact Nat.lt_succ_of_lt (keeps.placed n mem)
  known n mem := Nat.lt_succ_of_lt (keeps.known n mem)

theorem Keeps.saveCandidate (free : depth = 0 → indent ≠ s.cursor.column) :
    ∃ s', s.saveCandidate = some s' ∧ Keeps s' indent outer depth ts ∧ s'.cursor = s.cursor := by
  cases allowed : s.keyAllowed with
  | false => exact ⟨s, by simp [State.saveCandidate, allowed], keeps, rfl⟩
  | true =>
    obtain ⟨ks, dropped, keeps'⟩ := keeps.dropCandidate
    refine ⟨_, by rw [State.saveCandidate, if_pos allowed, dropped]; rfl, keeps'.addSpot ?_, rfl⟩
    intro c same
    cases same
    have flow : State.inFlow { s with candidates := ks } = decide (0 < depth) := keeps'.inFlow
    by_cases flat : depth = 0
    · simp [keeps.indent, free flat]
    · simp [flow, Nat.pos_of_ne_zero flat]

end Keeping

/-- A position is reached once what lies between the tokens is skipped. -/
structure Nears (s : State) (p : Position) (ts : List Token) : Prop extends
    Keeps s p.indent p.outer p.depth ts where
  starts : Starts p.rest
  skips : ∃ c : Cursor, c.rest = p.rest ∧ c.column = p.column ∧
    skipBetween (s.cursor.rest.length + 1) s = (s.move c).allow p.keys

section Arriving

variable {s : State} {p : Position} {ts : List Token}
  (keeps : Keeps s p.indent p.outer p.depth ts) (starts : Starts p.rest)
include keeps starts

theorem Nears.here {i l : Nat} (at_ : s.cursor = ⟨p.rest, i, l, p.column⟩)
    (keys : s.keyAllowed = p.keys) : Nears s p ts := by
  refine ⟨keeps, starts, s.cursor, by rw [at_], by rw [at_], ?_⟩
  have skipped := skipBetween_spaces (s := s) starts 0 i l p.column s.cursor.rest.length
  simp only [spaces, List.replicate_zero, List.nil_append, Nat.add_zero, ← at_] at skipped
  rw [← keys]
  exact skipped

theorem Nears.space {i l k : Nat} (at_ : s.cursor = ⟨' ' :: p.rest, i, l, k⟩)
    (column : p.column = k + 1) (keys : s.keyAllowed = p.keys) : Nears s p ts := by
  refine ⟨keeps, starts, ⟨p.rest, i + 1, l, k + 1⟩, rfl, column.symm, ?_⟩
  have skipped := skipBetween_spaces (s := s) starts 1 i l k s.cursor.rest.length
  rw [← keys]
  simp only [spaces, List.replicate_succ, List.replicate_zero, List.cons_append, List.nil_append,
    ← at_] at skipped
  exact skipped

theorem Nears.line {i l k : Nat}
    (at_ : s.cursor = ⟨'\n' :: (spaces p.column ++ p.rest), i, l, k⟩)
    (keys : (s.keyAllowed || p.depth = 0) = p.keys) : Nears s p ts := by
  refine ⟨keeps, starts, ⟨p.rest, i + 1 + p.column, l + 1, p.column⟩, rfl, rfl, ?_⟩
  have long : s.cursor.rest.length + 1 = (s.cursor.rest.length - 1) + 2 := by
    rw [at_, List.length_cons]
    rfl
  have flow : (!s.inFlow) = decide (p.depth = 0) := by simp [keeps.inFlow, Nat.pos_iff_ne_zero]
  have skipped := skipBetween_line (s := s) starts p.column i l k (s.cursor.rest.length - 1)
  rw [long, ← keys, ← flow]
  rw [← at_] at skipped
  exact skipped

end Arriving

theorem run_succ (turns : Nat) (s : State) : run (turns + 1) s =
    ((skipBetween (s.cursor.rest.length + 1) s).dropStale).bind fun s =>
      match (s.unroll s.cursor.column).cursor.rest with
      | [] => ((s.unroll s.cursor.column).unroll (-1)).dropCandidate
      | c :: after => (token (s.unroll s.cursor.column) c after).bind (run turns) := by
  rfl

section Standing

variable {s s' : State} {p q : Position} {ts new : List Token}

theorem Stands.skips (stands : Stands s p ts) : skipBetween (s.cursor.rest.length + 1) s = s :=
  skipBetween_at (by rw [stands.rest]; exact stands.starts)

theorem Stands.cursor (stands : Stands s p ts) :
    s.cursor = ⟨p.rest, s.cursor.index, s.cursor.line, p.column⟩ := by
  rw [← stands.rest, ← stands.column]

theorem Stands.stays (stands : Stands s p ts) (level : p.depth = 0 → p.indent ≤ p.column) :
    s.unroll s.cursor.column = s := by
  refine unroll_level fun block => ?_
  rw [stands.indent, stands.column]
  exact level (by simpa [stands.inFlow] using block)

theorem Nears.arrives (nears : Nears s p ts) :
    ∃ s', (∀ n, run n s = run n s') ∧ Stands s' p ts := by
  obtain ⟨c, rest, column, skipped⟩ := nears.skips
  obtain ⟨ks, dropped, keeps, calm⟩ := ((nears.toKeeps.move c).allow p.keys).dropStale
  have stands : Stands { (s.move c).allow p.keys with candidates := ks } p ts :=
    { keeps with rest := rest, column := column, keys := rfl, starts := nears.starts, calm := calm }
  refine ⟨_, fun n => ?_, stands⟩
  cases n with
  | zero => rfl
  | succ n => rw [run_succ, run_succ, stands.skips, skipped, dropped, stands.calm]

theorem Passes.of_token {c : Char} {after : List Char} (text : p.rest = c :: after)
    (level : p.depth = 0 → p.indent ≤ p.column) (shorter : q.rest.length < p.rest.length)
    (read : ∀ s ts, Stands s p ts → ∃ s', token s c after = some s' ∧ Nears s' q (ts ++ new)) :
    Passes p new q := by
  intro s ts stands
  obtain ⟨s', token, nears⟩ := read s ts stands
  obtain ⟨s'', runs, stands'⟩ := nears.arrives
  refine ⟨s'', ⟨1, ?_, fun n => ?_⟩, stands'⟩
  · rw [stands'.rest, stands.rest]
    exact shorter
  · rw [run_succ, stands.skips, stands.calm, Option.bind_some, stands.stays level, stands.rest, text]
    simp only [token, Option.bind_some, runs]

theorem Passes.unroll (rest : List Char) {column : Nat} {indent : Int} (o : Int) (outer : List Int)
    (keys : Bool) (further : (column : Int) < indent) :
    Passes ⟨rest, column, indent, o :: outer, 0, keys⟩ [.blockEnd]
      ⟨rest, column, o, outer, 0, keys⟩ := by
  intro s ts stands
  have keeps := stands.add .blockEnd
  let s' : State := { s.add .blockEnd with indent := o, outer := outer }
  have calm : s'.dropStale = some s' := by
    have calm := stands.calm
    simp only [State.dropStale] at calm
    split at calm
    case isTrue => cases calm
    case isFalse free =>
      have same := congrArg State.candidates (Option.some.inj calm)
      exact (if_neg free).trans (congrArg (fun ks => some { s' with candidates := ks }) same)
  have stands' : Stands s' ⟨rest, column, o, outer, 0, keys⟩ (ts ++ [.blockEnd]) :=
    { keeps with
      indent := rfl
      outer := rfl
      rest := stands.rest
      column := stands.column
      keys := stands.keys
      starts := stands.starts
      calm := calm }
  refine ⟨s', ⟨0, Nat.le_refl _, fun n => ?_⟩, stands'⟩
  cases n with
  | zero => rfl
  | succ n =>
    have levels : s.unroll s.cursor.column = s'.unroll s'.cursor.column := by
      have block : s.inFlow = false := by simpa using stands.inFlow
      have block' : s'.inFlow = false := block
      have open_ : s.outer = o :: outer := stands.outer
      have inside : (s.cursor.column : Int) < s.indent := by
        rw [stands.column, stands.indent]
        exact further
      rw [State.unroll, State.unroll, block, block', open_]
      simp only [Bool.false_eq_true, if_false, unrollFrom, if_pos inside]
      rfl
    rw [Nat.add_zero, run_succ, run_succ, stands.skips, stands'.skips, stands.calm, stands'.calm,
      Option.bind_some, Option.bind_some, levels]

end Standing

end LedgerBroker.Yaml.Lexer
