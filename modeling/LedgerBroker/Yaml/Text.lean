import LedgerBroker.Yaml.Cursor

set_option autoImplicit false

namespace LedgerBroker.Yaml

inductive Gap
  | spaces (text : List Char)
  | breaks (first others : List Char)

namespace Gap

def text : Gap → List Char
  | spaces cs => cs
  | breaks ['\n'] [] => [' ']
  | breaks ['\n'] others => others
  | breaks first others => first ++ others

def crossesLine : Gap → Bool
  | spaces _ => false
  | breaks _ _ => true

def read (indent : Nat) : Nat → Gap → Cursor → Option (Gap × Cursor)
  | 0, gap, c => some (gap, c)
  | turns + 1, gap, c =>
    match c.rest with
    | [] => some (gap, c)
    | ch :: _ =>
      if isSpace ch then
        match gap with
        | spaces cs => read indent turns (spaces (cs ++ [ch])) (c.skip 1)
        | breaks _ _ =>
          if ch = '\t' ∧ c.column < indent then none else read indent turns gap (c.skip 1)
      else if isBreak ch then
        let (b, after) := c.readBreak
        match gap with
        | spaces _ => read indent turns (breaks b []) after
        | breaks first others => read indent turns (breaks first (others ++ b)) after
      else some (gap, c)

end Gap

structure Setting where
  indent : Int
  inFlow : Bool

namespace Plain

def isFlowMark (c : Char) : Bool := ",[]\x7b\x7d".toList.contains c

def word (inFlow : Bool) : List Char → Option (List Char)
  | [] => some []
  | c :: rest =>
    if isSpaceOrBreak c then some []
    else if inFlow && c = ':' && rest.head?.any (fun d => isFlowMark d || d = '?') then none
    else if (c = ':' && endsWord rest) || (inFlow && isFlowMark c) then some []
    else (word inFlow rest).map (c :: ·)

def words (s : Setting) : Nat → Gap → Cursor → Option (List Char × Bool × Cursor)
  | 0, gap, c => some ([], gap.crossesLine, c)
  | turns + 1, gap, c =>
    if c.atMarker || c.peekIs (· = '#') then some ([], gap.crossesLine, c)
    else
      match word s.inFlow c.rest with
      | none => none
      | some [] => some ([], gap.crossesLine, c)
      | some w =>
        let c := c.skip w.length
        match Gap.read (s.indent + 1).toNat c.rest.length (.spaces []) c with
        | none => none
        | some (next, c') =>
          if !c.peekIs isSpaceOrBreak then some (gap.text ++ w, false, c)
          else if !s.inFlow && (c'.column : Int) < s.indent + 1 then
            some (gap.text ++ w, next.crossesLine, c')
          else (words s turns next c').map fun (cs, crossed, last) =>
            (gap.text ++ w ++ cs, crossed, last)

def read (s : Setting) (c : Cursor) : Option (List Char × Bool × Cursor) :=
  words s (c.rest.length + 1) (.spaces []) c

end Plain

namespace Quoted

def hexDigit? (c : Char) : Option Nat :=
  if c.isDigit then some (c.toNat - 0x30)
  else if 'a' ≤ c ∧ c ≤ 'f' then some (c.toNat - 0x57)
  else if 'A' ≤ c ∧ c ≤ 'F' then some (c.toNat - 0x37)
  else none

def hexChar? (digits : List Char) (width : Nat) : Option Char := do
  let n ← digits.foldlM (fun n c => (hexDigit? c).map (n * 16 + ·)) 0
  if digits.length = width ∧ n.isValidChar then some (Char.ofNat n) else none

def escape? (rest : List Char) : Option (Char × Nat) :=
  match rest with
  | '0' :: _ => some ('\x00', 1)
  | 'a' :: _ => some ('\x07', 1)
  | 'b' :: _ => some ('\x08', 1)
  | 't' :: _ | '\t' :: _ => some ('\t', 1)
  | 'n' :: _ => some ('\n', 1)
  | 'v' :: _ => some ('\x0b', 1)
  | 'f' :: _ => some ('\x0c', 1)
  | 'r' :: _ => some ('\r', 1)
  | 'e' :: _ => some ('\x1b', 1)
  | ' ' :: _ => some (' ', 1)
  | '"' :: _ => some ('"', 1)
  | '/' :: _ => some ('/', 1)
  | '\\' :: _ => some ('\\', 1)
  | 'N' :: _ => some ('\u0085', 1)
  | '_' :: _ => some ('\u00a0', 1)
  | 'L' :: _ => some ('\u2028', 1)
  | 'P' :: _ => some ('\u2029', 1)
  | 'x' :: digits => (hexChar? (digits.take 2) 2).map (·, 3)
  | 'u' :: digits => (hexChar? (digits.take 4) 4).map (·, 5)
  | 'U' :: digits => (hexChar? (digits.take 8) 8).map (·, 9)
  | _ => none

def word (double : Bool) : Nat → Cursor → Option (List Char × Bool × Cursor)
  | 0, c => some ([], false, c)
  | turns + 1, c =>
    match c.rest with
    | [] => some ([], false, c)
    | ch :: rest =>
      if isSpaceOrBreak ch then some ([], false, c)
      else if !double && ch = '\'' then
        if rest.head? = some '\'' then
          (word double turns (c.skip 2)).map fun (cs, last) => ('\'' :: cs, last)
        else some ([], false, c)
      else if double && ch = '"' then some ([], false, c)
      else if double && ch = '\\' then
        if rest.head?.any isBreak then some ([], true, (c.skip 1).readBreak.2)
        else
          match escape? rest with
          | none => none
          | some (e, n) => (word double turns (c.skip (n + 1))).map fun (cs, last) => (e :: cs, last)
      else (word double turns (c.skip 1)).map fun (cs, last) => (ch :: cs, last)

def words (double : Bool) : Nat → Cursor → Option (List Char × Cursor)
  | 0, _ => none
  | turns + 1, c =>
    if c.atMarker || c.rest.isEmpty then none
    else
      match word double c.rest.length c with
      | none => none
      | some (w, escaped, c) =>
        if c.peekIs (· = if double then '"' else '\'') then some (w, c.skip 1)
        else
          match Gap.read 0 c.rest.length (if escaped then .breaks [] [] else .spaces []) c with
          | none => none
          | some (gap, c) => (words double turns c).map fun (cs, last) => (w ++ gap.text ++ cs, last)

def read (double : Bool) (c : Cursor) : Option (List Char × Cursor) :=
  words double (c.rest.length + 1) (c.skip 1)

end Quoted

namespace Block

inductive Chomp
  | clip
  | strip
  | keep
  deriving DecidableEq

def chomp? (c : Char) : Option Chomp :=
  if c = '+' then some .keep else if c = '-' then some .strip else none

def header (c : Cursor) : Option (Chomp × Nat × Cursor) :=
  match c.rest with
  | a :: rest =>
    match chomp? a with
    | some chomp =>
      match rest with
      | d :: _ =>
        if d = '0' then none
        else if d.isDigit then some (chomp, d.toNat - 0x30, c.skip 2)
        else some (chomp, 0, c.skip 1)
      | [] => some (chomp, 0, c.skip 1)
    | none =>
      if a = '0' then none
      else if a.isDigit then
        match rest.head?.bind chomp? with
        | some chomp => some (chomp, a.toNat - 0x30, c.skip 2)
        | none => some (.clip, a.toNat - 0x30, c.skip 1)
      else some (.clip, 0, c)
  | [] => some (.clip, 0, c)

/-- Skips indentation and empty lines. Where `indent` is zero all spaces count as indentation and
the deepest column seen comes back. -/
def breaks (indent : Nat) : Nat → Nat → Cursor → Option (List Char × Nat × Cursor)
  | 0, deepest, c => some ([], deepest, c)
  | turns + 1, deepest, c =>
    let blank := c.rest.takeWhile (· = ' ')
    let c := c.skip (if indent = 0 then blank.length else min blank.length (indent - c.column))
    let deepest := max deepest c.column
    if (indent = 0 || c.column < indent) && c.peekIs (· = '\t') then none
    else if c.peekIs isBreak then
      let (b, c) := c.readBreak
      (breaks indent turns deepest c).map fun (bs, last) => (b ++ bs, last)
    else some ([], deepest, c)

structure State where
  text : List Char := []
  leadingBreak : List Char := []
  leadingBlank : Bool := false
  trailing : List Char

def State.joint (s : State) (literal trailingBlank : Bool) : List Char :=
  if !literal && s.leadingBreak = ['\n'] && !s.leadingBlank && !trailingBlank then
    if s.trailing = [] then [' '] else s.trailing
  else s.leadingBreak ++ s.trailing

def lines (literal : Bool) (indent : Nat) : Nat → State → Cursor → Option (State × Cursor)
  | 0, s, c => some (s, c)
  | turns + 1, s, c =>
    if c.column = indent && !c.rest.isEmpty then
      let blank := c.peekIs isSpace
      let content := c.rest.takeWhile (!isBreak ·)
      let (b, after) := (c.skip content.length).readBreak
      match breaks indent (after.rest.length + 1) 0 after with
      | none => none
      | some (trailing, _, next) =>
        lines literal indent turns
          { text := s.text ++ s.joint literal blank ++ content
            leadingBreak := b
            leadingBlank := blank
            trailing := trailing } next
    else some (s, c)

def read (literal : Bool) (parent : Int) (c : Cursor) : Option (List Char × Cursor) := do
  let (chomp, increment, c) ← header (c.skip 1)
  let c := (c.skipWhile isSpace).skipComment
  if !c.rest.isEmpty && !c.peekIs isBreak then none
  let c := c.readBreak.2
  let given := if increment = 0 then 0 else (max parent 0).toNat + increment
  let (trailing, deepest, c) ← breaks given (c.rest.length + 1) 0 c
  let indent := if given = 0 then max deepest (max (parent + 1) 1).toNat else given
  let (s, c) ← lines literal indent (c.rest.length + 1) { trailing := trailing } c
  let tail := match chomp with
    | .strip => []
    | .clip => s.leadingBreak
    | .keep => s.leadingBreak ++ s.trailing
  some (s.text ++ tail, c)

end Block

end LedgerBroker.Yaml
