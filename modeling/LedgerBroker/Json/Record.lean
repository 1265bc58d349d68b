import LedgerBroker.Json.Reader

set_option autoImplicit false

namespace LedgerBroker.Json.Reader

def string : Reader String := do
  match ← lead with
  | .string => skip; stringBody
  | _ => refuse

def natBelow (bound : Nat) : Reader Nat := do
  match ← lead with
  | .number =>
    let n ← number
    if n.integral && !n.negative && n.digits < bound then return n.digits
    else if n.isHuge then malformed
    else mismatch
  | _ => refuse

def optional {α : Type} (reader : Reader α) : Reader (Option α) := do
  match ← lead with
  | .null => literal "null"; return none
  | _ => return some (← reader)

def another (first : Bool) : Reader Bool := do
  match ← peek with
  | none => malformed
  | some b =>
    if b = 0x5D then return false
    else if first then return true
    else if b = 0x2C then
      skip
      if (← peek) = some 0x5D then malformed else return true
    else malformed

def items {α : Type} (reader : Reader α) : Nat → Bool → Reader (List α)
  | 0, _ => malformed
  | turns + 1, first => do
    if ← another first then
      let item ← reader
      return item :: (← items reader turns false)
    else return []

def list {α : Type} (reader : Reader α) : Reader (List α) := do
  match ← lead with
  | .array =>
    skip
    let values ← items reader ((← get).length + 1) true
    expect 0x5D
    return values
  | _ => refuse

structure Slot (ρ : Type) where
  name : String
  isFilled : ρ → Bool
  fill : ρ → Reader ρ

def Slot.of {ρ α : Type} (name : String) (get : ρ → Option α) (set : ρ → α → ρ)
    (reader : Reader α) : Slot ρ where
  name := name
  isFilled draft := (get draft).isSome
  fill draft := do return set draft (← reader)

def nextName (first : Bool) : Reader (Option String) := do
  match ← peek with
  | none => malformed
  | some b =>
    if b = 0x7D then return none
    else
      if !first then
        if b = 0x2C then skip else malformed
      expect 0x22
      return some (← stringBody)

def fields {ρ : Type} (slots : List (Slot ρ)) : Nat → Bool → ρ → Reader ρ
  | 0, _, _ => malformed
  | turns + 1, first, draft => do
    match ← nextName first with
    | none => return draft
    | some name =>
      match slots.find? (·.name = name) with
      | none =>
        expect 0x3A
        skipValue
        fields slots turns false draft
      | some slot =>
        if slot.isFilled draft then mismatch
        expect 0x3A
        fields slots turns false (← slot.fill draft)

def positions {ρ : Type} : List (Slot ρ) → Bool → ρ → Reader ρ
  | [], _, draft => return draft
  | slot :: rest, first, draft => do
    if ← another first then positions rest false (← slot.fill draft) else return draft

def record {ρ α : Type} (blank : ρ) (slots : List (Slot ρ)) (finish : ρ → Option α) :
    Reader α := do
  match ← lead with
  | .object =>
    skip
    match finish (← fields slots ((← get).length + 1) true blank) with
    | none => mismatch
    | some value => expect 0x7D; return value
  | .array =>
    skip
    match finish (← positions slots true blank) with
    | none => mismatch
    | some value => expect 0x5D; return value
  | _ => refuse

def choice {α : Type} (word? : String → Option α) : Reader α := do
  match ← lead with
  | .string => skip; pick (← stringBody)
  | .object =>
    skip
    let value ← do pick (← string)
    expect 0x3A
    match ← lead with
    | .null => literal "null"
    | _ => refuse
    expect 0x7D
    return value
  | _ => refuse
where
  pick (word : String) : Reader α :=
    match word? word with
    | none => mismatch
    | some value => return value

end Reader

end LedgerBroker.Json
