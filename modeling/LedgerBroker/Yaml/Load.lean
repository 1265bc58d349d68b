import LedgerBroker.Yaml.Basic
import LedgerBroker.Yaml.Node

/-!
Collections nest 128 deep at most, and aliases may be followed a hundred times for each mark of the
document, so a short text cannot stand for a huge value.
-/

set_option autoImplicit false

namespace LedgerBroker.Yaml

/-- A reader of nodes: it counts down how often an alias may still be followed. -/
abbrev Loader (α : Type) := ReaderT Document (StateT Nat Option) α

namespace Loader

def greatestDepth : Nat := 128

def resolve (n : Node) : Loader Node := do
  match n with
  | .reference number =>
    match ← get with
    | 0 => failure
    | left + 1 =>
      set left
      match (← read).find? number with
      | none => failure
      | some target => return target
  | _ => return n

namespace CoreTag

def bool : String := "tag:yaml.org,2002:bool"

def int : String := "tag:yaml.org,2002:int"

def float : String := "tag:yaml.org,2002:float"

def null : String := "tag:yaml.org,2002:null"

end CoreTag

def ofScalar : Scalar → Option Yaml
  | .null => some .null
  | .bool b => some (.bool b)
  | .int n => some (.int n)
  | .wideInt => none
  | .float x => some (.float x)
  | .str s => some (.str s)

def narrowInt? (s : String) : Option Int :=
  (Scalar.integer? s.toList).bind fun n =>
    match Scalar.ofInteger n with
    | .int n => some n
    | _ => none

def scalar? (tag : Option String) (text : String) (writing : Writing) : Option Yaml :=
  match tag with
  | none => if writing = .plain then ofScalar (Scalar.ofPlain text) else some (.str text)
  | some t =>
    if t = CoreTag.bool then (Scalar.bool? text).map .bool
    else if t = CoreTag.int then (narrowInt? text).map .int
    else if t = CoreTag.float then (Scalar.float? text.toList).map .float
    else if t = CoreTag.null then if Scalar.isNull text then some .null else none
    else some (.str text)

def ownTag? (tag : Option String) : Option String :=
  tag.bind fun t =>
    match t.toList with
    | ['!'] => some "!"
    | '!' :: rest => some (String.ofList rest)
    | _ => none

def withTag (tag : Option String) (y : Yaml) : Yaml :=
  match ownTag? tag with
  | none => y
  | some t => .tagged t y

def hasKey (entries : List (Yaml × Yaml)) (k : Yaml) : Bool := entries.any (·.1 == k)

def leaf (tag : Option String) (text : String) (writing : Writing) : Loader Yaml :=
  let plainTag := if (ownTag? tag).isSome then none else tag
  match scalar? plainTag text writing with
  | none => failure
  | some y => return withTag tag y

def addEntry (read : Node → Loader Yaml) (ys : List (Yaml × Yaml)) (entry : Node × Node) :
    Loader (List (Yaml × Yaml)) := do
  let k ← read entry.1
  if hasKey ys k then failure else return ys ++ [(k, ← read entry.2)]

def value : Nat → Node → Loader Yaml
  | 0, n => do
    match ← resolve n with
    | .scalar tag text writing => leaf tag text writing
    | _ => failure
  | depth + 1, n => do
    match ← resolve n with
    | .scalar tag text writing => leaf tag text writing
    | .seq tag items => return withTag tag (.seq (← items.mapM (value depth)))
    | .map tag entries => return withTag tag (.map (← entries.foldlM (addEntry (value depth)) []))
    | .reference _ => failure

def text (n : Node) : Loader String := do
  match ← resolve n with
  | .scalar _ s _ => return s
  | _ => failure

def literalText (coreTag : String) (n : Node) : Loader String := do
  match ← resolve n with
  | .scalar _ s .plain => return s
  | .scalar tag s .literal => if tag = some coreTag then return s else failure
  | _ => failure

def bool (n : Node) : Loader Bool := do
  match Scalar.bool? (← literalText CoreTag.bool n) with
  | none => failure
  | some b => return b

def natBelow (bound : Nat) (n : Node) : Loader Nat := do
  match narrowInt? (← literalText CoreTag.int n) with
  | some (.ofNat m) => if m < bound then return m else failure
  | _ => failure

def list {α : Type} (item : Node → Loader α) (n : Node) : Loader (List α) := do
  match ← resolve n with
  | .seq _ items => items.mapM item
  | .scalar _ "" .plain => return []
  | _ => failure

def fields (n : Node) : Loader (List (String × Node)) := do
  match ← resolve n with
  | .map _ entries => entries.mapM fun (k, v) => do return (← text k, v)
  | .scalar _ "" .plain => return []
  | _ => failure

def field? (entries : List (String × Node)) (name : String) : Loader (Option Node) := do
  match entries.filter (·.1 = name) with
  | [] => return none
  | [(_, n)] => return some n
  | _ => failure

def field {α : Type} (entries : List (String × Node)) (name : String) (reader : Node → Loader α) :
    Loader α := do
  match ← field? entries name with
  | none => failure
  | some n => reader n

def optionalField {α : Type} (entries : List (String × Node)) (name : String)
    (reader : Node → Loader α) : Loader (Option α) := do
  match ← field? entries name with
  | none => return none
  | some n =>
    match ← resolve n with
    | .scalar none s .plain => if s = "" ∨ Scalar.isNull s then return none else some <$> reader n
    | .scalar (some tag) s .plain =>
      if tag ≠ CoreTag.null then some <$> reader n
      else if Scalar.isNull s then return none
      else failure
    | _ => some <$> reader n

def texts (n : Node) : Loader (List (String × String)) := do
  (← fields n).mapM fun (k, v) => do return (k, ← text v)

def run {α : Type} (d : Document) (reader : Node → Loader α) : Option α :=
  (StateT.run (ReaderT.run (reader d.root) d) (d.size * 100)).map (·.1)

end Loader

def parse? (text : String) : Option Yaml := do
  match ← Document.parse? text.toList with
  | none => some .null
  | some d => Loader.run d (Loader.value Loader.greatestDepth)

end LedgerBroker.Yaml
