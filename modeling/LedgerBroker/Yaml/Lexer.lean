import LedgerBroker.Yaml.Tag
import LedgerBroker.Yaml.Text
import LedgerBroker.Yaml.Token

/-!
Whether a scalar or collection is a key shows only at the colon after it. So each place where a key
may start is kept as a numbered spot among the tokens; a colon settles the spot it belongs to, and
in the end spots turn into the tokens they were settled as.
-/

set_option autoImplicit false

namespace LedgerBroker.Yaml

namespace Lexer

/-- A place where a key may have started; a required one has to be followed by its colon. -/
structure Candidate where
  spot : Nat
  index : Nat
  line : Nat
  column : Nat
  required : Bool

inductive Piece
  | token (t : Token)
  | spot (n : Nat)

structure State where
  cursor : Cursor
  pieces : List Piece
  spots : Nat
  /-- Spots that are keys, and whether a mapping starts there too. -/
  settled : List (Nat × Bool)
  indent : Int
  outer : List Int
  candidates : List (Option Candidate)
  keyAllowed : Bool

namespace State

def start (text : List Char) : State where
  cursor := .start text
  pieces := []
  spots := 0
  settled := []
  indent := -1
  outer := []
  candidates := [none]
  keyAllowed := true

def inFlow (s : State) : Bool := 1 < s.candidates.length

def add (s : State) (t : Token) : State := { s with pieces := .token t :: s.pieces }

def move (s : State) (c : Cursor) : State := { s with cursor := c }

def allow (s : State) (keys : Bool) : State := { s with keyAllowed := keys }

def unrollFrom (column : Int) : List Int → State → State
  | [], s => s
  | outer :: rest, s =>
    if column < s.indent then
      unrollFrom column rest { s.add .blockEnd with indent := outer, outer := rest }
    else s

def unroll (s : State) (column : Int) : State :=
  if s.inFlow then s else unrollFrom column s.outer s

def roll (s : State) (column : Nat) (t : Token) : State :=
  if !s.inFlow && s.indent < column then
    { s.add t with indent := column, outer := s.indent :: s.outer }
  else s

def isStale (s : State) (k : Candidate) : Bool :=
  k.line < s.cursor.line || k.index + 1024 < s.cursor.index

def dropStale (s : State) : Option State :=
  let stale (k : Option Candidate) := k.any s.isStale
  if s.candidates.any fun k => stale k && k.any (·.required) then none
  else some { s with candidates := s.candidates.map fun k => if stale k then none else k }

def setCandidate (s : State) (k : Option Candidate) : State :=
  { s with candidates := k :: s.candidates.drop 1 }

def dropCandidate (s : State) : Option State :=
  match s.candidates.head? with
  | some (some k) => if k.required then none else some (s.setCandidate none)
  | _ => some s

def saveCandidate (s : State) : Option State := do
  if s.keyAllowed then
    let s ← s.dropCandidate
    let c := s.cursor
    let k : Candidate := ⟨s.spots, c.index, c.line, c.column, !s.inFlow && s.indent = c.column⟩
    some { s.setCandidate (some k) with
      pieces := .spot s.spots :: s.pieces
      spots := s.spots + 1 }
  else some s

end State

def skipBetween : Nat → State → State
  | 0, s => s
  | turns + 1, s =>
    let c := s.cursor
    let c := if c.index = 0 && c.peekIs (· = '\uFEFF') then c.skip 1 else c
    let tabs := s.inFlow || !s.keyAllowed
    let c := (c.skipWhile fun d => d = ' ' || (tabs && d = '\t')).skipComment
    if c.peekIs isBreak then
      skipBetween turns { s with cursor := c.readBreak.2, keyAllowed := s.keyAllowed || !s.inFlow }
    else s.move c

def value (s : State) : Option State :=
  match s.candidates.head? with
  | some (some k) =>
    let opens := !s.inFlow && s.indent < k.column
    let s := if opens then { s with indent := k.column, outer := s.indent :: s.outer } else s
    some { s.setCandidate none with
      settled := (k.spot, opens) :: s.settled
      keyAllowed := false
      pieces := .token .value :: s.pieces
      cursor := s.cursor.skip 1 }
  | _ =>
    if s.inFlow then some (((s.allow false).add .value).move (s.cursor.skip 1))
    else if s.keyAllowed then
      let s := s.roll s.cursor.column .blockMapping
      some ((s.add .value).move (s.cursor.skip 1))
    else none

def documentMarker (s : State) (t : Token) : Option State := do
  let s ← (s.unroll (-1)).dropCandidate
  some (((s.allow false).add t).move (s.cursor.skip 3))

def directive (s : State) : Option State := do
  let s ← (s.unroll (-1)).dropCandidate
  let (kind, c) ← Directive.read (s.cursor.skip 1)
  let t := match kind with
    | .version major minor => Token.version major minor
    | .tagPrefix handle text => Token.tagPrefix handle text
  some (((s.allow false).add t).move c)

def flowStart (s : State) (t : Token) : Option State := do
  let s ← s.saveCandidate
  some ((({ s with candidates := none :: s.candidates }.allow true).add t).move (s.cursor.skip 1))

def flowEnd (s : State) (t : Token) : Option State := do
  let s ← s.dropCandidate
  let s := if s.inFlow then { s with candidates := s.candidates.drop 1 } else s
  some (((s.allow false).add t).move (s.cursor.skip 1))

def flowEntry (s : State) : Option State := do
  let s ← s.dropCandidate
  some (((s.allow true).add .flowEntry).move (s.cursor.skip 1))

def blockEntry (s : State) : Option State := do
  if !s.inFlow && !s.keyAllowed then none
  let s ← (s.roll s.cursor.column .blockSequence).dropCandidate
  some (((s.allow true).add .blockEntry).move (s.cursor.skip 1))

def key (s : State) : Option State := do
  if !s.inFlow && !s.keyAllowed then none
  let s ← (s.roll s.cursor.column .blockMapping).dropCandidate
  some (((s.allow !s.inFlow).add .key).move (s.cursor.skip 1))

def anchor (s : State) (make : String → Token) : Option State := do
  let s ← s.saveCandidate
  let (name, c) ← anchorName? (s.cursor.skip 1)
  some (((s.allow false).add (make name)).move c)

def tag (s : State) : Option State := do
  let s ← s.saveCandidate
  let (handle, suffix, c) ← Tag.read s.inFlow s.cursor
  some (((s.allow false).add (.tag handle suffix)).move c)

def blockScalar (s : State) (literal : Bool) : Option State := do
  let s ← s.dropCandidate
  let (text, c) ← Block.read literal s.indent s.cursor
  some (((s.allow true).add (.scalar (String.ofList text) (if literal then .literal else .folded))).move c)

def quotedScalar (s : State) (double : Bool) : Option State := do
  let s ← s.saveCandidate
  let (text, c) ← Quoted.read double s.cursor
  some (((s.allow false).add (.scalar (String.ofList text) .quoted)).move c)

def plainScalar (s : State) : Option State := do
  let s ← s.saveCandidate
  let (text, crossed, c) ← Plain.read ⟨s.indent, s.inFlow⟩ s.cursor
  some (((s.allow crossed).add (.scalar (String.ofList text) .plain)).move c)

def startsPlain (c : Char) : Bool :=
  !isSpaceOrBreak c && !"-?:,[]\x7b\x7d#&*!|>'\"%@\x60".toList.contains c

def token (s : State) (c : Char) (after : List Char) : Option State :=
  if s.cursor.column = 0 && c = '%' then directive s
  else if s.cursor.atMarker then
    documentMarker s (if c = '-' then .documentStart else .documentEnd)
  else if c = '[' then flowStart s .flowSequence
  else if c = '\x7b' then flowStart s .flowMapping
  else if c = ']' then flowEnd s .flowSequenceEnd
  else if c = '\x7d' then flowEnd s .flowMappingEnd
  else if c = ',' then flowEntry s
  else if c = '-' && endsWord after then blockEntry s
  else if c = '?' && (s.inFlow || endsWord after) then key s
  else if c = ':' && (s.inFlow || endsWord after) then value s
  else if c = '*' then anchor s .reference
  else if c = '&' then anchor s .anchor
  else if c = '!' then tag s
  else if c = '|' && !s.inFlow then blockScalar s true
  else if c = '>' && !s.inFlow then blockScalar s false
  else if c = '\'' then quotedScalar s false
  else if c = '"' then quotedScalar s true
  else if startsPlain c || (c = '-' && !after.head?.any isSpace) ||
      (!s.inFlow && (c = '?' || c = ':') && !endsWord after) then plainScalar s
  else none

def run : Nat → State → Option State
  | 0, _ => none
  | turns + 1, s => do
    let s ← (skipBetween (s.cursor.rest.length + 1) s).dropStale
    let s := s.unroll s.cursor.column
    match s.cursor.rest with
    | [] => (s.unroll (-1)).dropCandidate
    | c :: after => run turns (← token s c after)

def settle (settled : List (Nat × Bool)) : List Piece → List Token
  | [] => []
  | .token t :: rest => t :: settle settled rest
  | .spot n :: rest =>
    match settled.lookup n with
    | none => settle settled rest
    | some true => .blockMapping :: .key :: settle settled rest
    | some false => .key :: settle settled rest

end Lexer

def tokens? (text : List Char) : Option (List Token) := do
  if !text.all isAllowed then none
  let s ← Lexer.run (text.length + 1) (.start text)
  some (Lexer.settle s.settled s.pieces.reverse)

end LedgerBroker.Yaml
