import LedgerBroker.Yaml.Lexer

set_option autoImplicit false

namespace LedgerBroker.Yaml

inductive Node
  | scalar (tag : Option String) (text : String) (writing : Writing)
  | seq (tag : Option String) (items : List Node)
  | map (tag : Option String) (entries : List (Node × Node))
  | reference (number : Nat)

namespace Node

def empty : Node := scalar none "" .plain

mutual

def size : Node → Nat
  | scalar .. | reference _ => 1
  | seq _ items => 2 + sizeItems items
  | map _ entries => 2 + sizeEntries entries

def sizeItems : List Node → Nat
  | [] => 0
  | item :: rest => item.size + sizeItems rest

def sizeEntries : List (Node × Node) → Nat
  | [] => 0
  | entry :: rest => sizePair entry + sizeEntries rest

def sizePair : Node × Node → Nat
  | (k, v) => k.size + v.size

end

structure Progress where
  tokens : List Token
  prefixes : List (String × String)
  numbers : List (String × Nat) := []
  begun : Nat := 0
  named : List (Nat × Nat × Node) := []

abbrev Parser (α : Type) := StateT Progress Option α

namespace Parser

def peek : Parser (Option Token) := do return (← get).tokens.head?

def advance : Parser Unit := modify fun p => { p with tokens := p.tokens.drop 1 }

def at_ (ts : List Token) : Parser Bool := do
  match ← peek with
  | none => return false
  | some t => return ts.contains t

def expect (t : Token) : Parser Unit := do
  if ← at_ [t] then advance else failure

def nameNumber (name : String) : Parser (Nat × Nat) := do
  let p ← get
  let n := p.numbers.length
  set { p with
    numbers := (name, n) :: p.numbers.filter (·.1 ≠ name)
    begun := p.begun + 1 }
  return (n, p.begun)

def resolveTag (handle suffix : String) : Parser String := do
  if handle = "" then return suffix
  match (← get).prefixes.lookup handle with
  | none => failure
  | some text => return text ++ suffix

def properties : Parser (Option String × Option (Nat × Nat)) := do
  match ← peek with
  | some (.anchor name) =>
    advance
    let number ← nameNumber name
    match ← peek with
    | some (.tag handle suffix) =>
      advance
      return (some (← resolveTag handle suffix), some number)
    | _ => return (none, some number)
  | some (.tag handle suffix) =>
    advance
    match ← peek with
    | some (.anchor name) =>
      advance
      let tag ← resolveTag handle suffix
      return (some tag, some (← nameNumber name))
    | _ => return (some (← resolveTag handle suffix), none)
  | _ => return (none, none)

def record (number : Option (Nat × Nat)) (node : Node) : Parser Node := do
  match number with
  | none => return node
  | some (n, when_) =>
    modify fun p => { p with named := (n, when_, node) :: p.named }
    return node

mutual

/-- A node. Block collections may stand where `block` is set, and sequences that are not indented
where `dashes` is set. -/
def node : Nat → Bool → Bool → Parser Node
  | 0, _, _ => failure
  | turns + 1, block, dashes => do
    match ← peek with
    | some (.reference name) =>
      advance
      match (← get).numbers.lookup name with
      | none => failure
      | some n => return .reference n
    | _ =>
      let (tag, number) ← properties
      match ← peek with
      | some .blockEntry =>
        if dashes then record number (.seq tag (← dashedItems turns))
        else bare tag number
      | some (.scalar text writing) =>
        advance
        record number (.scalar (tag.filter (· ≠ "!")) text writing)
      | some .flowSequence =>
        advance
        record number (.seq tag (← flowItems turns true))
      | some .flowMapping =>
        advance
        record number (.map tag (← flowEntries turns true))
      | some .blockSequence =>
        if block then
          advance
          record number (.seq tag (← blockItems turns))
        else bare tag number
      | some .blockMapping =>
        if block then
          advance
          record number (.map tag (← blockEntries turns))
        else bare tag number
      | _ => bare tag number
where
  bare (tag : Option String) (number : Option (Nat × Nat)) : Parser Node :=
    if tag.isNone && number.isNone then failure else record number (.scalar tag "" .plain)

def blockItems : Nat → Parser (List Node)
  | 0 => failure
  | turns + 1 => do
    if ← at_ [.blockEnd] then
      advance
      return []
    expect .blockEntry
    let item ←
      if ← at_ [.blockEntry, .blockEnd] then pure empty else node turns true false
    return item :: (← blockItems turns)

def dashedItems : Nat → Parser (List Node)
  | 0 => failure
  | turns + 1 => do
    if ← at_ [.blockEntry] then
      advance
      let item ←
        if ← at_ [.blockEntry, .key, .value, .blockEnd] then pure empty
        else node turns true false
      return item :: (← dashedItems turns)
    else return []

def blockEntries : Nat → Parser (List (Node × Node))
  | 0 => failure
  | turns + 1 => do
    if ← at_ [.blockEnd] then
      advance
      return []
    expect .key
    let k ←
      if ← at_ [.key, .value, .blockEnd] then pure empty else node turns true true
    let v ← do
      if ← at_ [.value] then
        advance
        if ← at_ [.key, .value, .blockEnd] then pure empty else node turns true true
      else pure empty
    return (k, v) :: (← blockEntries turns)

def flowItems : Nat → Bool → Parser (List Node)
  | 0, _ => failure
  | turns + 1, first => do
    if !first && !(← at_ [.flowSequenceEnd]) then expect .flowEntry
    if ← at_ [.flowSequenceEnd] then
      advance
      return []
    if ← at_ [.key] then
      advance
      let k ← do
        if ← at_ [.value, .flowEntry, .flowSequenceEnd] then
          advance
          pure empty
        else node turns false false
      let v ← flowValue turns .flowSequenceEnd
      return .map none [(k, v)] :: (← flowItems turns false)
    let item ← node turns false false
    return item :: (← flowItems turns false)

def flowEntries : Nat → Bool → Parser (List (Node × Node))
  | 0, _ => failure
  | turns + 1, first => do
    if !first && !(← at_ [.flowMappingEnd]) then expect .flowEntry
    if ← at_ [.flowMappingEnd] then
      advance
      return []
    if ← at_ [.key] then
      advance
      let k ← do
        if ← at_ [.value, .flowEntry, .flowMappingEnd] then pure empty
        else node turns false false
      let v ← flowValue turns .flowMappingEnd
      return (k, v) :: (← flowEntries turns false)
    let k ← node turns false false
    return (k, empty) :: (← flowEntries turns false)

def flowValue : Nat → Token → Parser Node
  | 0, _ => failure
  | turns + 1, last => do
    if ← at_ [.value] then
      advance
      if ← at_ [.flowEntry, last] then return empty else node turns false false
    else return empty

end

structure Preamble where
  versioned : Bool := false
  tags : List (String × String) := []

def Preamble.isEmpty (p : Preamble) : Bool := !p.versioned && p.tags.isEmpty

def directives : Nat → Preamble → Parser Preamble
  | 0, _ => failure
  | turns + 1, said => do
    match ← peek with
    | some (.version major minor) =>
      advance
      if said.versioned ∨ major ≠ 1 ∨ (minor ≠ 1 ∧ minor ≠ 2) then failure
      directives turns { said with versioned := true }
    | some (.tagPrefix handle text) =>
      advance
      if (said.tags.lookup handle).isSome then failure
      directives turns { said with tags := (handle, text) :: said.tags }
    | _ => return said

def skipDocumentEnds : Nat → Parser Unit
  | 0 => return ()
  | turns + 1 => do
    if ← at_ [.documentEnd] then
      advance
      skipDocumentEnds turns

def defaultPrefixes : List (String × String) :=
  [("!", "!"), ("!!", "tag:yaml.org,2002:")]

def document (turns : Nat) : Parser (Option Node) := do
  if (← peek).isNone then return none
  let said ← directives turns {}
  modify fun p => { p with prefixes := said.tags ++ defaultPrefixes }
  let explicit ← at_ [.documentStart]
  if !said.isEmpty && !explicit then failure
  let root ← do
    if explicit then
      advance
      match ← peek with
      | none | some .documentStart | some .documentEnd | some (.version ..)
      | some (.tagPrefix ..) => pure empty
      | some _ => node turns true false
    else node turns true false
  skipDocumentEnds turns
  if (← peek).isSome then failure
  return some root

end Parser

end Node

structure Document where
  root : Node
  named : List (Nat × Nat × Node)
  size : Nat

namespace Document

/-- The node a number stands for: of those that carry it, the one that began last. -/
def find? (d : Document) (number : Nat) : Option Node :=
  let carriers := d.named.filter (·.1 = number)
  let latest := carriers.foldl (fun m x => max m x.2.1) 0
  (carriers.find? (·.2.1 = latest)).map (·.2.2)

def parse? (text : List Char) : Option (Option Document) := do
  let tokens ← tokens? text
  let (root, p) ← (Node.Parser.document (4 * tokens.length + 4)).run ⟨tokens, [], [], 0, []⟩
  some (root.map fun r => ⟨r, p.named, r.size⟩)

end Document

end LedgerBroker.Yaml
