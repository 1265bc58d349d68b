import LedgerBroker.Proofs.Layouts

set_option autoImplicit false

namespace LedgerBroker.Yaml.Node.Parser

def Reads {α : Type} (p : Parser α) (ts rest : List Token) (a : α) : Prop :=
  ∀ q : Progress, p.run { q with tokens := ts } = some (a, { q with tokens := rest })

section Reads

variable {α β : Type} {ts mid rest : List Token}

theorem Reads.pure (a : α) (ts : List Token) : Reads (pure a : Parser α) ts ts a := fun _ => rfl

theorem run_bind {p : Parser α} {f : α → Parser β} {a : α} {b : β} {q q' q'' : Progress}
    (first : p.run q = some (a, q')) (second : (f a).run q' = some (b, q'')) :
    (p >>= f).run q = some (b, q'') := by
  rw [StateT.run_bind, first]
  exact second

theorem Reads.bind {p : Parser α} {f : α → Parser β} {a : α} {b : β} (first : Reads p ts mid a)
    (second : Reads (f a) mid rest b) : Reads (p >>= f) ts rest b :=
  fun q => run_bind (first q) (second q)

theorem reads_peek (ts : List Token) : Reads peek ts ts ts.head? := fun _ => rfl

theorem reads_advance (t : Token) (ts : List Token) : Reads advance (t :: ts) ts () := fun _ => rfl

theorem reads_at (ts ends : List Token) :
    Reads (at_ ends) ts ts (ts.head?.any ends.contains) := by
  intro q
  cases ts <;> rfl

theorem reads_expect (t : Token) (ts : List Token) : Reads (expect t) (t :: ts) ts () := by
  refine .bind (reads_at _ _) ?_
  simp [reads_advance]

end Reads

def content (turns : Nat) (block dashes : Bool) : Token → Parser Node
  | .blockEntry => if dashes then do return .seq none (← dashedItems turns) else failure
  | .scalar text writing => do
    advance
    return .scalar none text writing
  | .flowSequence => do
    advance
    return .seq none (← flowItems turns true)
  | .flowMapping => do
    advance
    return .map none (← flowEntries turns true)
  | .blockSequence =>
    if block then do
      advance
      return .seq none (← blockItems turns)
    else failure
  | .blockMapping =>
    if block then do
      advance
      return .map none (← blockEntries turns)
    else failure
  | _ => failure

theorem reads_node {turns : Nat} {block dashes : Bool} {t : Token} {ts rest : List Token} {n : Node}
    (reads : Reads (content turns block dashes t) (t :: ts) rest n) :
    Reads (node (turns + 1) block dashes) (t :: ts) rest n := by
  rw [node]
  refine .bind (reads_peek _) ?_
  cases t
  case reference => exact nomatch reads ⟨[], [], [], 0, []⟩
  case anchor => exact nomatch reads ⟨[], [], [], 0, []⟩
  case tag => exact nomatch reads ⟨[], [], [], 0, []⟩
  all_goals
    refine .bind (a := (none, none)) (.bind (reads_peek _) (.pure _ _)) ?_
    exact .bind (reads_peek _) reads

theorem reads_scalar (turns : Nat) (block dashes : Bool) (s : String) (w : Writing)
    (rest : List Token) :
    Reads (node (turns + 1) block dashes) (.scalar s w :: rest) rest (.scalar none s w) :=
  reads_node (.bind (reads_advance _ _) (.pure _ _))

theorem reads_wordTokens (ws : List String) (rest : List Token) (turns : Nat)
    (enough : 2 * (Layout.wordTokens ws).length + 1 ≤ turns) :
    Reads (flowItems turns false) (Layout.wordTokens ws ++ rest) rest
      (ws.map fun w => .scalar none w .plain) := by
  induction ws generalizing turns with
  | nil =>
    obtain ⟨turns, rfl⟩ : ∃ n, turns = n + 1 := ⟨turns - 1, by omega⟩
    rw [flowItems]
    refine .bind (reads_at _ _) ?_
    refine .bind (reads_at _ _) ?_
    exact .bind (reads_advance _ _) (.pure _ _)
  | cons w ws ih =>
    simp only [Layout.wordTokens, List.length_cons] at enough
    obtain ⟨turns, rfl⟩ : ∃ n, turns = n + 2 := ⟨turns - 2, by omega⟩
    have others := ih (turns + 1) (by omega)
    rw [flowItems]
    refine .bind (reads_at _ _) ?_
    refine .bind (reads_expect _ _) ?_
    refine .bind (reads_at _ _) ?_
    refine .bind (reads_at _ _) ?_
    exact .bind (reads_scalar _ _ _ _ _ _) (.bind others (.pure _ _))

theorem reads_words (ws : List String) {place : Place} (rest : List Token) (turns : Nat)
    (block dashes : Bool) (enough : 2 * ((Layout.words ws).tokens place).length + 2 ≤ turns) :
    Reads (node turns block dashes) ((Layout.words ws).tokens place ++ rest) rest
      (Layout.words ws).node := by
  obtain ⟨turns, rfl⟩ : ∃ n, turns = n + 3 := ⟨turns - 3, by
    have : 1 ≤ ((Layout.words ws).tokens place).length := by cases ws <;> simp [Layout.tokens]
    omega⟩
  cases ws with
  | nil =>
    refine reads_node (.bind (reads_advance _ _) (.bind ?_ (.pure _ _)))
    rw [flowItems]
    refine .bind (reads_at _ _) ?_
    refine .bind (reads_at _ _) ?_
    exact .bind (reads_advance _ _) (.pure _ _)
  | cons w ws =>
    simp only [Layout.tokens, List.length_cons] at enough
    have others := reads_wordTokens ws rest (turns + 1) (by omega)
    refine reads_node (.bind (reads_advance _ _) (.bind ?_ (.pure _ _)))
    rw [flowItems]
    refine .bind (reads_at _ _) ?_
    refine .bind (reads_at _ _) ?_
    refine .bind (reads_at _ _) ?_
    exact .bind (reads_scalar _ _ _ _ _ _) (.bind others (.pure _ _))

theorem reads_noEntries (rest : List Token) (turns : Nat) (block dashes : Bool) :
    Reads (node (turns + 2) block dashes) (.flowMapping :: .flowMappingEnd :: rest) rest
      (.map none []) := by
  refine reads_node (.bind (reads_advance _ _) (.bind ?_ (.pure _ _)))
  rw [flowEntries]
  refine .bind (reads_at _ _) ?_
  refine .bind (reads_at _ _) ?_
  exact .bind (reads_advance _ _) (.pure _ _)

theorem reads_at_other {ts ends : List Token} {t : Token} (head : ts.head? = some t)
    (other : ends.contains t = false) : Reads (at_ ends) ts ts false := by
  have reads := reads_at ts ends
  have false_ : ts.head?.any ends.contains = false := by rw [head]; exact other
  rwa [false_] at reads

theorem reads_at_no {ts : List Token} {t : Token} (other : ts.head? ≠ some t) :
    Reads (at_ [t]) ts ts false := by
  have reads := reads_at ts [t]
  have false_ : ts.head?.any [t].contains = false := by
    cases ts with
    | nil => rfl
    | cons u ts => simpa using other
  rwa [false_] at reads

theorem head_tokens (l : Layout) (place : Place) (rest : List Token) :
    ∃ t, (l.tokens place ++ rest).head? = some t ∧ t ≠ .key ∧ t ≠ .value ∧ t ≠ .blockEnd ∧
      (place = .dash → t ≠ .blockEntry) := by
  cases l with
  | scalar => exact ⟨_, rfl, nofun, nofun, nofun, nofun⟩
  | words ws => cases ws <;> exact ⟨_, rfl, nofun, nofun, nofun, nofun⟩
  | noEntries => exact ⟨_, rfl, nofun, nofun, nofun, nofun⟩
  | items =>
    by_cases dash : place = .dash
    · subst dash
      exact ⟨_, rfl, nofun, nofun, nofun, nofun⟩
    · have noDash : place.isDash = false := by cases place <;> first | rfl | exact absurd rfl dash
      exact ⟨.blockEntry, by simp [Layout.tokens, noDash], nofun, nofun, nofun,
        fun h => absurd h dash⟩
  | entries => exact ⟨_, rfl, nofun, nofun, nofun, nofun⟩

theorem head_entryTokens (es : List (String × Layout)) (rest : List Token) :
    (Layout.entryTokens es ++ .blockEnd :: rest).head? ≠ some .blockEntry := by
  match es with
  | [] => nofun
  | (key, value) :: others => nofun

section Collections

variable {turns : Nat} {ts rest : List Token}

theorem reads_dashes {block : Bool} {ns : List Node}
    (items : Reads (dashedItems turns) (.blockEntry :: ts) rest ns) :
    Reads (node (turns + 1) block true) (.blockEntry :: ts) rest (.seq none ns) :=
  reads_node (.bind items (.pure _ _))

theorem reads_sequence {dashes : Bool} {ns : List Node} (items : Reads (blockItems turns) ts rest ns) :
    Reads (node (turns + 1) true dashes) (.blockSequence :: ts) rest (.seq none ns) :=
  reads_node (.bind (reads_advance _ _) (.bind items (.pure _ _)))

theorem reads_mapping {dashes : Bool} {es : List (Node × Node)}
    (entries : Reads (blockEntries turns) ts rest es) :
    Reads (node (turns + 1) true dashes) (.blockMapping :: ts) rest (.map none es) :=
  reads_node (.bind (reads_advance _ _) (.bind entries (.pure _ _)))

end Collections

section Cons

variable {turns : Nat} {first : Layout} {others : List Layout} {rest rest' : List Token}

theorem reads_dashed_cons
    (item : Reads (node turns true false) (first.tokens .dash ++ (Layout.itemTokens others ++ rest))
      (Layout.itemTokens others ++ rest) first.node)
    (items : Reads (dashedItems turns) (Layout.itemTokens others ++ rest) rest
      (Layout.nodes others)) :
    Reads (dashedItems (turns + 1))
      (.blockEntry :: (first.tokens .dash ++ (Layout.itemTokens others ++ rest))) rest
      (first.node :: Layout.nodes others) := by
  obtain ⟨t, head, noKey, noValue, noEnd, noDash⟩ :=
    head_tokens first .dash (Layout.itemTokens others ++ rest)
  rw [dashedItems]
  refine .bind (reads_at _ _) ?_
  refine .bind (reads_advance _ _) ?_
  refine .bind (reads_at_other head (by simp [noKey, noValue, noEnd, noDash])) ?_
  exact .bind item (.bind items (.pure _ _))

theorem reads_block_cons
    (item : Reads (node turns true false) (first.tokens .dash ++ (Layout.itemTokens others ++ rest))
      (Layout.itemTokens others ++ rest) first.node)
    (items : Reads (blockItems turns) (Layout.itemTokens others ++ rest) rest'
      (Layout.nodes others)) :
    Reads (blockItems (turns + 1))
      (.blockEntry :: (first.tokens .dash ++ (Layout.itemTokens others ++ rest))) rest'
      (first.node :: Layout.nodes others) := by
  obtain ⟨t, head, -, -, noEnd, noDash⟩ :=
    head_tokens first .dash (Layout.itemTokens others ++ rest)
  rw [blockItems]
  refine .bind (reads_at _ _) ?_
  refine .bind (reads_expect _ _) ?_
  refine .bind (reads_at_other head (by simp [noEnd, noDash])) ?_
  exact .bind item (.bind items (.pure _ _))

theorem reads_entries_cons {key : String} {value : Layout} {others : List (String × Layout)}
    (item : Reads (node (turns + 1) true true)
      (value.tokens .key ++ (Layout.entryTokens others ++ .blockEnd :: rest))
      (Layout.entryTokens others ++ .blockEnd :: rest) value.node)
    (entries : Reads (blockEntries (turns + 1)) (Layout.entryTokens others ++ .blockEnd :: rest) rest
      (Layout.pairs others)) :
    Reads (blockEntries (turns + 2)) (.key :: .scalar key .plain :: .value ::
        (value.tokens .key ++ (Layout.entryTokens others ++ .blockEnd :: rest))) rest
      ((.scalar none key .plain, value.node) :: Layout.pairs others) := by
  obtain ⟨t, head, noKey, noValue, noEnd, -⟩ :=
    head_tokens value .key (Layout.entryTokens others ++ .blockEnd :: rest)
  have first := reads_scalar turns true true key .plain (.value ::
    (value.tokens .key ++ (Layout.entryTokens others ++ .blockEnd :: rest)))
  rw [blockEntries]
  refine .bind (reads_at _ _) ?_
  refine .bind (reads_expect _ _) ?_
  refine .bind (reads_at _ _) ?_
  refine .bind first ?_
  refine .bind (reads_at _ _) ?_
  refine .bind (reads_advance _ _) ?_
  refine .bind (reads_at_other head (by simp [noKey, noValue, noEnd])) ?_
  exact .bind item (.bind entries (.pure _ _))

end Cons

mutual

theorem reads_text (l : Layout) {place : Place} (known : place = .key ∨ place = .dash)
    (dashes : Bool) (allowed : place = .key → dashes = true) (rest : List Token)
    (ends : place = .key → rest.head? ≠ some .blockEntry) (turns : Nat)
    (enough : 2 * (l.tokens place).length + 2 ≤ turns) :
    Reads (node turns true dashes) (l.tokens place ++ rest) rest l.node := by
  match l with
  | .scalar style s =>
    obtain ⟨turns, rfl⟩ : ∃ n, turns = n + 1 := ⟨turns - 1, by omega⟩
    exact reads_scalar _ _ _ s style.writing rest
  | .words ws => exact reads_words ws rest _ _ _ enough
  | .noEntries =>
    obtain ⟨turns, rfl⟩ : ∃ n, turns = n + 2 := ⟨turns - 2, by omega⟩
    exact reads_noEntries rest turns _ _
  | .items first others =>
    obtain ⟨turns, rfl⟩ : ∃ n, turns = n + 2 := ⟨turns - 2, by omega⟩
    simp only [Layout.tokens, List.length_cons, List.length_append] at enough
    rcases known with rfl | rfl
    case inl =>
      obtain rfl : dashes = true := allowed rfl
      have item := reads_text first (.inr rfl) false nofun
        (Layout.itemTokens others ++ rest) nofun turns (by omega)
      have items := reads_dashed others rest (ends rfl) turns (by omega)
      simpa [Layout.tokens, Place.isDash, Layout.node] using reads_dashes (reads_dashed_cons item items)
    case inr =>
      have item := reads_text first (.inr rfl) false nofun
        (Layout.itemTokens others ++ .blockEnd :: rest) nofun turns (by omega)
      have items := reads_block others rest turns (by omega)
      simpa [Layout.tokens, Place.isDash, Layout.node] using
        reads_sequence (reads_block_cons item items)
  | .entries key value others =>
    obtain ⟨turns, rfl⟩ : ∃ n, turns = n + 3 := ⟨turns - 3, by
      simp only [Layout.tokens, List.length_cons] at enough
      omega⟩
    simp only [Layout.tokens, List.length_cons, List.length_append] at enough
    have item := reads_text value (.inl rfl) true (fun _ => rfl)
      (Layout.entryTokens others ++ .blockEnd :: rest) (fun _ => head_entryTokens others rest)
      (turns + 1) (by omega)
    have entries := reads_entries others rest (turns + 1) (by omega)
    simpa [Layout.tokens, Layout.node, Layout.pairs] using
      reads_mapping (reads_entries_cons item entries)

theorem reads_dashed (ls : List Layout) (rest : List Token) (ends : rest.head? ≠ some .blockEntry)
    (turns : Nat) (enough : 2 * (Layout.itemTokens ls).length + 1 ≤ turns) :
    Reads (dashedItems turns) (Layout.itemTokens ls ++ rest) rest (Layout.nodes ls) := by
  obtain ⟨turns, rfl⟩ : ∃ n, turns = n + 1 := ⟨turns - 1, by omega⟩
  match ls with
  | [] =>
    rw [dashedItems]
    exact .bind (reads_at_no ends) (.pure _ _)
  | first :: others =>
    simp only [Layout.itemTokens, List.length_cons, List.length_append] at enough
    have item := reads_text first (.inr rfl) false nofun
      (Layout.itemTokens others ++ rest) nofun turns (by omega)
    have items := reads_dashed others rest ends turns (by omega)
    simpa [Layout.itemTokens, Layout.nodes] using reads_dashed_cons item items

theorem reads_block (ls : List Layout) (rest : List Token) (turns : Nat)
    (enough : 2 * (Layout.itemTokens ls).length + 1 ≤ turns) :
    Reads (blockItems turns) (Layout.itemTokens ls ++ .blockEnd :: rest) rest
      (Layout.nodes ls) := by
  obtain ⟨turns, rfl⟩ : ∃ n, turns = n + 1 := ⟨turns - 1, by omega⟩
  match ls with
  | [] =>
    rw [blockItems]
    exact .bind (reads_at _ _) (.bind (reads_advance _ _) (.pure _ _))
  | first :: others =>
    simp only [Layout.itemTokens, List.length_cons, List.length_append] at enough
    have item := reads_text first (.inr rfl) false nofun
      (Layout.itemTokens others ++ .blockEnd :: rest) nofun turns (by omega)
    have items := reads_block others rest turns (by omega)
    simpa [Layout.itemTokens, Layout.nodes] using reads_block_cons item items

theorem reads_entries (es : List (String × Layout)) (rest : List Token) (turns : Nat)
    (enough : 2 * (Layout.entryTokens es).length + 1 ≤ turns) :
    Reads (blockEntries turns) (Layout.entryTokens es ++ .blockEnd :: rest) rest
      (Layout.pairs es) := by
  match es with
  | [] =>
    obtain ⟨turns, rfl⟩ : ∃ n, turns = n + 1 := ⟨turns - 1, by omega⟩
    rw [blockEntries]
    exact .bind (reads_at _ _) (.bind (reads_advance _ _) (.pure _ _))
  | (key, value) :: others =>
    simp only [Layout.entryTokens, Layout.pairTokens, List.length_cons, List.length_append] at enough
    obtain ⟨turns, rfl⟩ : ∃ n, turns = n + 2 := ⟨turns - 2, by omega⟩
    have item := reads_text value (.inl rfl) true (fun _ => rfl)
      (Layout.entryTokens others ++ .blockEnd :: rest) (fun _ => head_entryTokens others rest)
      (turns + 1) (by omega)
    have entries := reads_entries others rest (turns + 1) (by omega)
    simpa [Layout.entryTokens, Layout.pairTokens, Layout.pairs, Layout.pair] using
      reads_entries_cons item entries

end

section Document

variable {key : String} {value : Layout} {others : List (String × Layout)} {turns : Nat}

theorem reads_root
    (enough : 2 * ((Layout.entries key value others).tokens .key).length + 2 ≤ turns) :
    Reads (node turns true false) ((Layout.entries key value others).tokens .key) []
      (Layout.entries key value others).node := by
  have reads := reads_text (Layout.entries key value others) (.inr rfl) false nofun []
    nofun turns enough
  rw [List.append_nil] at reads
  exact reads

theorem run_document
    (enough : 2 * ((Layout.entries key value others).tokens .key).length + 2 ≤ turns) :
    (document turns).run ⟨(Layout.entries key value others).tokens .key, [], [], 0, []⟩ =
      some (some (Layout.entries key value others).node, ⟨[], defaultPrefixes, [], 0, []⟩) := by
  have root := reads_root enough ⟨[], defaultPrefixes, [], 0, []⟩
  obtain ⟨turns, rfl⟩ : ∃ n, turns = n + 1 := ⟨turns - 1, by omega⟩
  refine run_bind (a := some .blockMapping) rfl ?_
  refine run_bind (a := {}) rfl ?_
  refine run_bind rfl ?_
  refine run_bind (a := false) rfl ?_
  refine run_bind root ?_
  rfl

theorem run_document_marked
    (enough : 2 * ((Layout.entries key value others).tokens .key).length + 2 ≤ turns) :
    (document turns).run
        ⟨.documentStart :: (Layout.entries key value others).tokens .key, [], [], 0, []⟩ =
      some (some (Layout.entries key value others).node, ⟨[], defaultPrefixes, [], 0, []⟩) := by
  have root := reads_root enough ⟨[], defaultPrefixes, [], 0, []⟩
  obtain ⟨turns, rfl⟩ : ∃ n, turns = n + 1 := ⟨turns - 1, by omega⟩
  refine run_bind (a := some .documentStart) rfl ?_
  refine run_bind (a := {}) rfl ?_
  refine run_bind rfl ?_
  refine run_bind (a := true) rfl ?_
  refine run_bind rfl ?_
  refine run_bind (a := some .blockMapping) rfl ?_
  refine run_bind root ?_
  rfl

end Document

end LedgerBroker.Yaml.Node.Parser

namespace LedgerBroker.Yaml.Document

variable {key : String} {value : Layout} {others : List (String × Layout)}

theorem parse?_layout (sound : (Layout.entries key value others).isSound = true) :
    Document.parse? (Layout.entriesText 0 ((key, value) :: others)) =
      some (some ⟨(Layout.entries key value others).node, [],
        (Layout.entries key value others).node.size⟩) := by
  rw [Document.parse?, Layout.tokens?_document sound]
  simp only [Option.bind_eq_bind, Option.bind_some]
  rw [Node.Parser.run_document (by omega)]
  rfl

theorem parse?_marked (sound : (Layout.entries key value others).isSound = true) :
    Document.parse? ('-' :: '-' :: '-' :: '\n' :: Layout.entriesText 0 ((key, value) :: others)) =
      some (some ⟨(Layout.entries key value others).node, [],
        (Layout.entries key value others).node.size⟩) := by
  rw [Document.parse?, Layout.tokens?_marked sound]
  simp only [Option.bind_eq_bind, Option.bind_some]
  rw [Node.Parser.run_document_marked (by simp; omega)]
  rfl

end LedgerBroker.Yaml.Document
