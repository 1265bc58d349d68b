import LedgerBroker.Proofs.ScalarReading

set_option autoImplicit false

namespace LedgerBroker.Yaml

def literalEnd (cs : List Char) : List Char := if cs.getLast?.any isBreak then [] else ['\n']

section Body

variable {indent : Nat}

theorem literalBody_word {w : List Char} (visible : ∀ c ∈ w, isBreak c = false)
    (rest : List Char) :
    literalBody indent false (w ++ rest) = w ++ literalBody indent false rest := by
  induction w with
  | nil => rfl
  | cons c w ih =>
    have others := ih fun d mem => visible d (List.mem_cons_of_mem _ mem)
    simp [literalBody, visible c List.mem_cons_self, others]

theorem literalBody_indented {cs : List Char} (some_ : cs ≠ [])
    (stop : ∀ c ∈ cs.head?, isBreak c = false) :
    literalBody indent true cs = spaces indent ++ literalBody indent false cs := by
  obtain ⟨c, cs, rfl⟩ := List.exists_cons_of_ne_nil some_
  simp [literalBody, stop c rfl]

theorem head_literalBody {cs : List Char} (some_ : cs ≠ [])
    (stop : ∀ c ∈ cs.head?, isBreak c = false) (t : List Char) :
    ∀ c ∈ (literalBody indent false cs ++ t).head?, isBreak c = false := by
  obtain ⟨c, cs, rfl⟩ := List.exists_cons_of_ne_nil some_
  have first := stop c rfl
  simp [literalBody, first]

theorem literalBody_breaks {g : List Char} (long : g ≠ []) (broken : ∀ c ∈ g, isBreak c = true)
    (after : Bool) (rest : List Char) :
    literalBody indent after (g ++ rest) = g ++ literalBody indent true rest := by
  induction g generalizing after with
  | nil => exact absurd rfl long
  | cons c g ih =>
    have first := broken c List.mem_cons_self
    cases g with
    | nil => simp [literalBody, first]
    | cons d g =>
      have others := ih (by simp) (fun e mem => broken e (List.mem_cons_of_mem _ mem)) true
      rw [List.cons_append, literalBody, if_pos first, others]
      rfl

theorem length_le_literalBody (after : Bool) (cs : List Char) :
    cs.length ≤ (literalBody indent after cs).length := by
  induction cs generalizing after with
  | nil => exact Nat.zero_le _
  | cons c cs ih =>
    have broken := ih true
    have unbroken := ih false
    rw [literalBody]
    split
    · simpa using broken
    · simp only [List.length_append, List.length_cons]
      omega

end Body

namespace Block

open Cursor (IsOwnBreak)

variable {indent d : Nat} {r u : List Char}

theorem takeWhile_spaces {m : Nat} (stop : u.head? ≠ some ' ') :
    (spaces m ++ u).takeWhile (· = ' ') = spaces m := by
  have none_ : u.takeWhile (· = ' ') = [] := by
    cases u with
    | nil => rfl
    | cons c u =>
      have : c ≠ ' ' := fun h => stop (h ▸ rfl)
      simp [this]
  rw [List.takeWhile_append_of_pos (by simp [spaces]), none_, List.append_nil]

theorem breaks_read (deep : 0 < indent) {m : Nat} (inside : m ≤ indent)
    (stop : ∀ c ∈ u.head?, isBreak c = false)
    (outside : m < indent → ∀ c ∈ u.head?, isSpace c = false) (bs : List Char)
    (own : ∀ b ∈ bs, IsOwnBreak b) : ∀ (turns deepest i l : Nat), bs.length < turns →
      ∃ i' deepest', breaks indent turns deepest ⟨bs ++ (spaces m ++ u), i, l, 0⟩ =
        some (bs, deepest', ⟨u, i', l + bs.length, m⟩) := by
  induction bs with
  | nil =>
    intro turns deepest i l enough
    obtain ⟨turns, rfl⟩ : ∃ n, turns = n + 1 := ⟨turns - 1, by omega⟩
    have moved : min ((spaces m ++ u).takeWhile (· = ' ')).length indent = m := by
      rcases Nat.lt_or_eq_of_le inside with further | rfl
      · have : u.head? ≠ some ' ' := fun h =>
          absurd (outside further ' ' h) (by decide)
        rw [takeWhile_spaces this]
        simp only [spaces, List.length_replicate]
        omega
      · rw [List.takeWhile_append_of_pos (by simp [spaces])]
        simp [spaces]
    have noTab : (decide (m < indent) && Cursor.peekIs ⟨u, i + m, l, m⟩ (· = '\t')) = false := by
      rcases Nat.lt_or_ge m indent with further | there
      · cases u with
        | nil => simp [Cursor.peekIs]
        | cons c u =>
          have : c ≠ '\t' := by
            rintro rfl
            exact absurd (outside further '\t' rfl) (by decide)
          simp [Cursor.peekIs, this]
      · simp [Nat.not_lt.2 there]
    have noBreak : Cursor.peekIs ⟨u, i + m, l, m⟩ isBreak = false := by
      cases u with
      | nil => rfl
      | cons c u => simpa [Cursor.peekIs] using stop c rfl
    have skipped := Cursor.skip_append (spaces m) u i l 0
    simp only [spaces, List.length_replicate, Nat.zero_add] at skipped moved
    refine ⟨i + m, max deepest m, ?_⟩
    simp only [breaks, List.nil_append, Nat.pos_iff_ne_zero.1 deep, if_false, Nat.sub_zero, spaces,
      moved, skipped, decide_false, Bool.false_or, noTab, noBreak, List.length_nil, Nat.add_zero]
    rfl
  | cons b bs ih =>
    intro turns deepest i l enough
    obtain ⟨turns, rfl⟩ : ∃ n, turns = n + 1 := ⟨turns - 1, by omega⟩
    have first := own b List.mem_cons_self
    have noSpace : b ≠ ' ' := by rintro rfl; exact absurd first.isBreak (by decide)
    have noTab : b ≠ '\t' := by rintro rfl; exact absurd first.isBreak (by decide)
    obtain ⟨i', deepest', others⟩ := ih (fun c mem => own c (List.mem_cons_of_mem _ mem)) turns
      (max deepest 0) (i + 1) (l + 1) (by simp only [List.length_cons] at enough; omega)
    refine ⟨i', deepest', ?_⟩
    simpa [breaks, noSpace, noTab, Cursor.skip, Cursor.peekIs, first.isBreak,
      Cursor.readBreak_own first, Nat.add_assoc, Nat.add_comm 1] using others

theorem breaks_first {m turns : Nat} (stop : ∀ c ∈ u.head?, isSpaceOrBreak c = false) (i l : Nat) :
    breaks 0 (turns + 1) 0 ⟨spaces m ++ u, i, l, 0⟩ = some ([], m, ⟨u, i + m, l, m⟩) := by
  have noSpace : u.head? ≠ some ' ' := fun h => nomatch stop ' ' h
  have skipped := Cursor.skip_append (spaces m) u i l 0
  have noTab : Cursor.peekIs ⟨u, i + m, l, m⟩ (· = '\t') = false := by
    cases u with
    | nil => rfl
    | cons c u =>
      have : c ≠ '\t' := by rintro rfl; exact nomatch stop '\t' rfl
      simp [Cursor.peekIs, this]
  have noBreak : Cursor.peekIs ⟨u, i + m, l, m⟩ isBreak = false := by
    cases u with
    | nil => rfl
    | cons c u => simpa [Cursor.peekIs] using (Bool.or_eq_false_iff.1 (stop c rfl)).2
  simp only [length_spaces, Nat.zero_add] at skipped
  simp [breaks, takeWhile_spaces noSpace, skipped, noTab, noBreak]

theorem breaks_start {p : Nat} {g : List Char} (own : ∀ b ∈ g, IsOwnBreak b)
    (stop : ∀ c ∈ u.head?, isBreak c = false) {hinted : Bool}
    (told : (g ++ u).head?.any isSpaceOrBreak = hinted) (turns i l : Nat)
    (enough : g.length < turns) : ∃ i' deepest,
      breaks (if hinted then p + 2 else 0) turns 0 ⟨g ++ (spaces (p + 2) ++ u), i, l, 0⟩ =
        some (g, deepest, ⟨u, i', l + g.length, p + 2⟩) ∧ (hinted = false → deepest = p + 2) := by
  cases hinted with
  | true =>
    obtain ⟨i', deepest, gone⟩ := breaks_read (show 0 < p + 2 by omega) (Nat.le_refl _) stop
      (fun h => absurd h (Nat.lt_irrefl _)) g own turns 0 i l enough
    exact ⟨i', deepest, gone, nofun⟩
  | false =>
    obtain rfl : g = [] := by
      cases g with
      | nil => rfl
      | cons b g => simp [isSpaceOrBreak, (own b List.mem_cons_self).isBreak] at told
    obtain ⟨turns, rfl⟩ : ∃ n, turns = n + 1 := ⟨turns - 1, by omega⟩
    have shown : ∀ c ∈ u.head?, isSpaceOrBreak c = false := fun c mem => by
      simpa [Option.mem_def.1 mem] using told
    exact ⟨i + (p + 2), p + 2, breaks_first shown i l, fun _ => rfl⟩

theorem lines_step (deep : 0 < indent) {m : Nat} (inside : m ≤ indent)
    (stop : ∀ c ∈ u.head?, isBreak c = false)
    (outside : m < indent → ∀ c ∈ u.head?, isSpace c = false) {w : List Char}
    (visible : ∀ c ∈ w, isBreak c = false) {b : Char} {bs : List Char}
    (own : ∀ c ∈ b :: bs, IsOwnBreak c) (s : State) : ∃ blank, ∀ turns i l, ∃ i',
      lines true indent (turns + 1) s ⟨w ++ b :: (bs ++ (spaces m ++ u)), i, l, indent⟩ =
        lines true indent turns ⟨s.text ++ (s.leadingBreak ++ s.trailing) ++ w, [b], blank, bs⟩
          ⟨u, i', l + 1 + bs.length, m⟩ := by
  obtain ⟨ownFirst, ownOthers⟩ := List.forall_mem_cons.1 own
  refine ⟨Cursor.peekIs ⟨w ++ b :: (bs ++ (spaces m ++ u)), 0, 0, indent⟩ isSpace,
    fun turns i l => ?_⟩
  obtain ⟨i', deepest, gone⟩ := breaks_read (u := u) deep inside stop outside bs ownOthers
    ((bs ++ (spaces m ++ u)).length + 1) 0 (i + w.length + 1) (l + 1)
    (by simp only [List.length_append]; omega)
  have content : (w ++ b :: (bs ++ (spaces m ++ u))).takeWhile (!isBreak ·) = w := by
    rw [List.takeWhile_append_of_pos (by simpa using visible)]
    simp [ownFirst.isBreak]
  refine ⟨i', ?_⟩
  simp only [lines, content, Cursor.skip_append, Cursor.readBreak_own ownFirst, gone]
  simp [State.joint, Cursor.peekIs]

theorem lines_stop {m : Nat} (outside : m ≠ indent) (turns : Nat) (s : State) (i l : Nat) :
    lines true indent turns s ⟨u, i, l, m⟩ = some (s, ⟨u, i, l, m⟩) := by
  cases turns with
  | zero => rfl
  | succ turns => simp [lines, outside]

def Ends (s : State) (before cs : List Char) : Prop :=
  ∃ front c b, s.text = before ++ (front ++ [c]) ∧ s.leadingBreak = [b] ∧
    cs = front ++ c :: b :: s.trailing ∧ isBreak c = false ∧ ∀ d ∈ b :: s.trailing, isBreak d = true

theorem literalEnd_append {rest : List Char} (some_ : rest ≠ []) (front : List Char) :
    literalEnd (front ++ rest) = literalEnd rest := by
  obtain ⟨c, last⟩ := Option.ne_none_iff_exists'.1 fun h => some_ (List.getLast?_eq_none_iff.1 h)
  simp [literalEnd, List.getLast?_append, last]

section Body

variable (deep : 0 < indent) (outside : d < indent)
  (stop : ∀ c ∈ r.head?, isSpaceOrBreak c = false)
include deep outside stop

theorem lines_last {w : List Char} (some_ : w ≠ []) (visible : ∀ c ∈ w, isBreak c = false)
    {b : Char} {bs : List Char} (own : ∀ c ∈ b :: bs, IsOwnBreak c) (s : State) :
    ∃ s', Ends s' (s.text ++ (s.leadingBreak ++ s.trailing)) (w ++ b :: bs) ∧
      ∀ turns i l, ∃ i' l', l < l' ∧
        lines true indent (turns + 1) s ⟨w ++ b :: (bs ++ (spaces d ++ r)), i, l, indent⟩ =
          some (s', ⟨r, i', l', d⟩) := by
  obtain ⟨blank, step⟩ := lines_step deep (Nat.le_of_lt outside)
    (fun c head => (Bool.or_eq_false_iff.1 (stop c head)).2)
    (fun _ c head => (Bool.or_eq_false_iff.1 (stop c head)).1) visible own s
  have split := List.dropLast_concat_getLast some_
  refine ⟨⟨s.text ++ (s.leadingBreak ++ s.trailing) ++ w, [b], blank, bs⟩,
    ⟨w.dropLast, w.getLast some_, b, ?_, rfl, ?_, visible _ (List.getLast_mem some_), ?_⟩,
    fun turns i l => ?_⟩
  · rw [split]
  · change w ++ b :: bs = w.dropLast ++ ([w.getLast some_] ++ b :: bs)
    rw [← List.append_assoc, split]
  · exact fun c mem => (own c mem).isBreak
  · obtain ⟨i', step⟩ := step turns i l
    exact ⟨i', _, by omega, step.trans (lines_stop (Nat.ne_of_lt outside) ..)⟩

theorem lines_body (cs : List Char) :
    cs ≠ [] → (∀ c ∈ cs.head?, isBreak c = false) → (∀ c ∈ cs, isBreak c = true → IsOwnBreak c) →
      ∀ s : State, ∃ s', Ends s' (s.text ++ (s.leadingBreak ++ s.trailing)) (cs ++ literalEnd cs) ∧
        ∀ turns i l, cs.length < turns → ∃ i' l', l < l' ∧
          lines true indent turns s
            ⟨literalBody indent false cs ++ (literalEnd cs ++ (spaces d ++ r)), i, l, indent⟩ =
            some (s', ⟨r, i', l', d⟩) := by
  induction cs using wordInduction isBreak with
  | word w visible =>
    intro some_ _ _ s
    have ended : literalEnd w = ['\n'] := by
      simp [literalEnd, List.getLast?_eq_some_getLast some_, visible _ (List.getLast_mem some_)]
    have written : literalBody indent false w = w := by
      simpa [literalBody] using literalBody_word visible []
    have own : ∀ c ∈ ['\n'], IsOwnBreak c := by simp [IsOwnBreak]
    obtain ⟨s', ends, read⟩ := lines_last deep outside stop some_ visible own s
    rw [written, ended]
    refine ⟨s', ends, fun turns i l enough => ?_⟩
    obtain ⟨turns, rfl⟩ : ∃ n, turns = n + 1 := ⟨turns - 1, by omega⟩
    exact read turns i l
  | more w g rest visible long broken stop' ih =>
    intro some_ head own s
    obtain ⟨b, bs, rfl⟩ := List.exists_cons_of_ne_nil long
    have ownBreaks : ∀ c ∈ b :: bs, IsOwnBreak c := fun c mem =>
      own c (List.mem_append_right _ (List.mem_append_left _ mem)) (broken c mem)
    have word : w ≠ [] := by
      rintro rfl
      exact nomatch (head b rfl).symm.trans (broken b List.mem_cons_self)
    have written : literalBody indent false (w ++ (b :: bs ++ rest)) =
        w ++ (b :: bs ++ literalBody indent true rest) := by
      rw [literalBody_word visible, literalBody_breaks long broken]
    by_cases more : rest = []
    case pos =>
      subst more
      have ended : literalEnd (w ++ (b :: bs ++ [])) = [] := by
        rw [List.append_nil, literalEnd_append long, literalEnd,
          List.getLast?_eq_some_getLast long]
        simp [broken _ (List.getLast_mem long)]
      obtain ⟨s', ends, read⟩ := lines_last deep outside stop word visible ownBreaks s
      rw [written, ended]
      refine ⟨s', by simpa using ends, fun turns i l enough => ?_⟩
      obtain ⟨turns, rfl⟩ : ∃ n, turns = n + 1 := ⟨turns - 1, by omega⟩
      simpa [literalBody] using read turns i l
    case neg =>
      have ended : literalEnd (w ++ (b :: bs ++ rest)) = literalEnd rest := by
        rw [← List.append_assoc, literalEnd_append more]
      obtain ⟨blank, step⟩ := lines_step deep (Nat.le_refl indent)
        (head_literalBody more stop' (literalEnd rest ++ (spaces d ++ r)))
        (fun h => absurd h (Nat.lt_irrefl _)) visible ownBreaks s
      obtain ⟨s', ends, read⟩ := ih more stop' (fun c mem => own c (by simp [mem]))
        ⟨s.text ++ (s.leadingBreak ++ s.trailing) ++ w, [b], blank, bs⟩
      obtain ⟨front, c, b', text, lead, split, shown, after⟩ := ends
      rw [written, ended, literalBody_indented more stop']
      refine ⟨s', ⟨w ++ b :: bs ++ front, c, b', ?_, lead, ?_, shown, after⟩,
        fun turns i l enough => ?_⟩
      · simpa using text
      · simp [split]
      · simp only [List.length_append, List.length_cons] at enough
        obtain ⟨turns, rfl⟩ : ∃ n, turns = n + 1 := ⟨turns - 1, by omega⟩
        obtain ⟨i', step⟩ := step turns i l
        obtain ⟨i'', l'', later, read⟩ := read turns i' (l + 1 + bs.length) (by omega)
        refine ⟨i'', l'', by omega, read ▸ step ▸ ?_⟩
        simp

end Body

def Chomp.sign : Chomp → List Char
  | .clip => []
  | .strip => ['-']
  | .keep => ['+']

def State.tail (s : State) : Chomp → List Char
  | .strip => []
  | .clip => s.leadingBreak
  | .keep => s.leadingBreak ++ s.trailing

def hint (hinted : Bool) : List Char := if hinted then ['2'] else []

theorem header_read (hinted : Bool) (chomp : Chomp) (t : List Char) (i l k : Nat) : ∃ i' k',
    header ⟨hint hinted ++ chomp.sign ++ '\n' :: t, i, l, k⟩ =
      some (chomp, if hinted then 2 else 0, ⟨'\n' :: t, i', l, k'⟩) := by
  cases hinted <;> cases chomp <;> exact ⟨_, _, rfl⟩

theorem hints_breaks {cs : List Char} (some_ : cs ≠ []) (broken : ∀ c ∈ cs, isBreak c = true) :
    literalHints cs = hint true ++ Chomp.keep.sign := by
  have first : cs.head?.any isSpaceOrBreak = true := by
    obtain ⟨c, cs, rfl⟩ := List.exists_cons_of_ne_nil some_
    simp [isSpaceOrBreak, broken c List.mem_cons_self]
  have shape : ∀ c ∈ cs.reverse, isBreak c = true := by simpa using broken
  rw [literalHints, first, hint, if_pos rfl]
  generalize reversed : cs.reverse = ends at shape
  rcases ends with _ | ⟨last, _ | ⟨before, front⟩⟩
  · exact absurd (List.reverse_eq_nil_iff.1 reversed) some_
  · simp [shape last List.mem_cons_self, Chomp.sign]
  · simp [shape last List.mem_cons_self, shape before (by simp), Chomp.sign]

theorem exists_lastTwo (b : Char) {bs : List Char} (long : bs ≠ []) :
    ∃ before x e, b :: bs = before ++ [x, e] := by
  obtain ⟨front, e, rfl⟩ : ∃ front e, bs = front ++ [e] :=
    ⟨_, _, (List.dropLast_concat_getLast long).symm⟩
  have some_ : b :: front ≠ [] := by simp
  have split := List.dropLast_concat_getLast some_
  refine ⟨(b :: front).dropLast, (b :: front).getLast some_, e, ?_⟩
  exact (congrArg (· ++ [e]) split.symm).trans (List.append_assoc ..)

theorem hints_lines {s : State} {cs : List Char} (ends : Ends s [] (cs ++ literalEnd cs)) :
    ∃ chomp : Chomp, literalHints cs = hint (cs.head?.any isSpaceOrBreak) ++ chomp.sign ∧
      s.text ++ s.tail chomp = cs := by
  obtain ⟨front, c, b, text, lead, split, shown, broken⟩ := ends
  by_cases closed : cs.getLast?.any isBreak
  case pos =>
    rw [literalEnd, if_pos closed, List.append_nil] at split
    by_cases single : s.trailing = []
    · refine ⟨.clip, ?_, by simp [State.tail, text, lead, split, single]⟩
      simp [literalHints, hint, split, single, shown, broken b List.mem_cons_self, Chomp.sign]
    · obtain ⟨before, x, e, last⟩ := exists_lastTwo b single
      refine ⟨.keep, ?_, by simp [State.tail, text, lead, split]⟩
      rw [last] at split broken
      simp [literalHints, hint, split, broken x (by simp), broken e (by simp), Chomp.sign]
  case neg =>
    rw [literalEnd, if_neg closed] at split
    by_cases single : s.trailing = []
    · obtain ⟨rfl, -⟩ : cs = front ++ [c] ∧ ['\n'] = [b] :=
        List.append_inj' (by simpa [single] using split) rfl
      refine ⟨.strip, ?_, by simp [State.tail, text]⟩
      rw [literalHints, hint, List.reverse_append]
      cases front.reverse <;> simp [shown, Chomp.sign]
    · obtain ⟨before, x, e, last⟩ := exists_lastTwo b single
      rw [last] at split broken
      obtain ⟨rfl, -⟩ : cs = front ++ c :: (before ++ [x]) ∧ ['\n'] = [e] :=
        List.append_inj' (by simpa using split) rfl
      refine absurd ?_ closed
      simp [List.getLast?_append, List.getLast?_cons, broken x (by simp)]

theorem read_eq {p : Nat} {c' last : Cursor} {chomp : Chomp} {hinted : Bool} {t g : List Char}
    {i₀ l k₀ i k deepest : Nat} {s : State}
    (head : header ⟨u, i₀ + 1, l, k₀ + 1⟩ =
      some (chomp, if hinted then 2 else 0, ⟨'\n' :: t, i, l, k⟩))
    (gone : breaks (if hinted then p + 2 else 0) (t.length + 1) 0 ⟨t, i + 1, l + 1, 0⟩ =
      some (g, deepest, c'))
    (seen : hinted = false → deepest = p + 2)
    (read : lines true (p + 2) (c'.rest.length + 1) { trailing := g } c' = some (s, last)) :
    Block.read true p ⟨'|' :: u, i₀, l, k₀⟩ = some (s.text ++ s.tail chomp, last) := by
  have here : Cursor.skip ⟨'|' :: u, i₀, l, k₀⟩ 1 = ⟨u, i₀ + 1, l, k₀ + 1⟩ := rfl
  have noSpace : Cursor.skipWhile ⟨'\n' :: t, i, l, k⟩ isSpace = ⟨'\n' :: t, i, l, k⟩ := rfl
  have noComment : Cursor.skipComment ⟨'\n' :: t, i, l, k⟩ = ⟨'\n' :: t, i, l, k⟩ := rfl
  have broken : Cursor.peekIs ⟨'\n' :: t, i, l, k⟩ isBreak = true := rfl
  have next : (Cursor.readBreak ⟨'\n' :: t, i, l, k⟩).2 = ⟨t, i + 1, l + 1, 0⟩ := rfl
  cases hinted with
  | true =>
    simp only [if_true] at gone
    simp [Block.read, head, noSpace, noComment, broken, next, gone, read]
    cases chomp <;> rfl
  | false =>
    obtain rfl : deepest = p + 2 := seen rfl
    have deepest : max (p + 2) (max ((p : Int) + 1) 1).toNat = p + 2 := by omega
    simp only [Bool.false_eq_true, if_false] at gone head
    simp only [Block.read, here, head, Option.bind_eq_bind, Option.bind_some, noSpace, noComment,
      broken, next, gone, deepest, read, Bool.not_true, Bool.and_false, Bool.false_eq_true,
      if_true, if_false]
    cases chomp <;> rfl

theorem Ends.of_before {s : State} {before cs : List Char} (ends : Ends s before cs) :
    Ends s [] (before ++ cs) := by
  obtain ⟨front, c, b, text, lead, split, shown, broken⟩ := ends
  exact ⟨before ++ front, c, b, by simp [text], lead, by simp [split], shown, broken⟩

theorem read_literal {p : Nat} (outside : d ≤ p) (stop : ∀ c ∈ r.head?, isSpaceOrBreak c = false)
    {cs : List Char} (some_ : cs ≠ []) (own : ∀ c ∈ cs, isBreak c = true → IsOwnBreak c)
    (i l k : Nat) : ∃ i' l', l < l' ∧
      Block.read true p ⟨'|' :: (literalHints cs ++ '\n' :: (literalBody (p + 2) true cs ++
        (literalEnd cs ++ (spaces d ++ r)))), i, l, k⟩ = some (cs, ⟨r, i', l', d⟩) := by
  obtain ⟨g, rest, rfl, broken, start⟩ := exists_run isBreak cs
  have ownBreaks : ∀ b ∈ g, IsOwnBreak b := fun b mem =>
    own b (List.mem_append_left _ mem) (broken b mem)
  by_cases more : rest = []
  case pos =>
    subst more
    rw [List.append_nil] at some_ ⊢
    have body : literalBody (p + 2) true (g ++ []) = g ++ literalBody (p + 2) true [] :=
      literalBody_breaks some_ broken true []
    have ended : literalEnd g = [] := by
      rw [literalEnd, List.getLast?_eq_some_getLast some_]
      simp [broken _ (List.getLast_mem some_)]
    simp only [literalBody, List.append_nil] at body
    obtain ⟨i', k', head⟩ := header_read true .keep (g ++ (spaces d ++ r)) (i + 1) l (k + 1)
    obtain ⟨i'', deepest, gone⟩ := breaks_read (m := d) (u := r) (show 0 < p + 2 by omega)
      (by omega) (fun c mem => (Bool.or_eq_false_iff.1 (stop c mem)).2)
      (fun _ c mem => (Bool.or_eq_false_iff.1 (stop c mem)).1) g ownBreaks
      ((g ++ (spaces d ++ r)).length + 1) 0 (i' + 1) (l + 1)
      (by simp only [List.length_append]; omega)
    refine ⟨i'', l + 1 + g.length, by omega, ?_⟩
    rw [hints_breaks some_ broken, body, ended]
    exact read_eq head gone nofun (lines_stop (by omega) ..)
  case neg =>
    have body : literalBody (p + 2) true (g ++ rest) =
        g ++ (spaces (p + 2) ++ literalBody (p + 2) false rest) := by
      rw [← literalBody_indented more start]
      by_cases long : g = []
      · simp [long]
      · exact literalBody_breaks long broken true rest
    obtain ⟨s, ends, read⟩ := lines_body (d := d) (r := r) (show 0 < p + 2 by omega) (by omega)
      stop rest more start (fun c mem => own c (List.mem_append_right _ mem)) { trailing := g }
    have whole := ends.of_before
    simp only [List.nil_append] at whole
    rw [← List.append_assoc, ← literalEnd_append more g] at whole
    obtain ⟨chomp, hints, text⟩ := hints_lines whole
    obtain ⟨u, lines⟩ : ∃ u, literalBody (p + 2) false rest ++
      (literalEnd rest ++ (spaces d ++ r)) = u := ⟨_, rfl⟩
    have layout : literalBody (p + 2) true (g ++ rest) ++ (literalEnd (g ++ rest) ++
        (spaces d ++ r)) = g ++ (spaces (p + 2) ++ u) := by
      rw [body, literalEnd_append more, ← lines]
      simp only [List.append_assoc]
    have size : rest.length ≤ u.length := by
      have : rest.length ≤ (literalBody (p + 2) false rest).length := length_le_literalBody false rest
      rw [← lines, List.length_append]
      omega
    have sameHead : (g ++ rest).head? = (g ++ u).head? := by
      obtain ⟨c, rest, rfl⟩ := List.exists_cons_of_ne_nil more
      rw [← lines]
      cases g <;> simp [literalBody, start c rfl]
    have noBreak : ∀ c ∈ (literalBody (p + 2) false rest ++
        (literalEnd rest ++ (spaces d ++ r))).head?, isBreak c = false :=
      head_literalBody more start _
    rw [lines] at noBreak read
    rw [layout, hints, sameHead]
    obtain ⟨i', k', head⟩ := header_read ((g ++ u).head?.any isSpaceOrBreak) chomp
      (g ++ (spaces (p + 2) ++ u)) (i + 1) l (k + 1)
    obtain ⟨i'', deepest, gone, seen⟩ := breaks_start (p := p) ownBreaks noBreak rfl
      ((g ++ (spaces (p + 2) ++ u)).length + 1) (i' + 1) (l + 1)
      (by simp only [List.length_append]; omega)
    obtain ⟨i₃, l₃, later, read⟩ := read (u.length + 1) i'' (l + 1 + g.length) (by omega)
    have all := read_eq head gone seen read
    rw [text] at all
    exact ⟨i₃, l₃, by omega, all⟩

end Block

end LedgerBroker.Yaml
