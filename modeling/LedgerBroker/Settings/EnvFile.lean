import LedgerBroker.Text.Blank

set_option autoImplicit false

namespace LedgerBroker

abbrev Variables := List (String × String)

namespace EnvFile

inductive Position
  | plain
  | escape
  | blank
  | single
  | singleEscape
  | double
  | doubleEscape

def Position.next? : Position → Char → Option Position
  | .blank, c =>
    if c = '#' then none
    else if c = '\\' then some .escape
    else if c = '"' then some .double
    else if c = '\'' then some .single
    else some .plain
  | .plain, c =>
    if Text.isBlank c && c ≠ '\n' && c ≠ '\r' then some .blank
    else if c = '\\' then some .escape
    else if c = '"' then some .double
    else if c = '\'' then some .single
    else some .plain
  | .escape, _ => some .plain
  | .double, c => some (if c = '\\' then .doubleEscape else if c = '"' then .plain else .double)
  | .doubleEscape, _ => some .double
  | .single, c => some (if c = '\\' then .singleEscape else if c = '\'' then .plain else .single)
  | .singleEscape, _ => some .single

def scan : Position → List Char → List Char × Option Position
  | position, [] => ([], some position)
  | position, c :: rest =>
    match position.next? c with
    | none => ([], none)
    | some after =>
      let (kept, last) := scan after rest
      (c :: kept, last)

def splitLines : List Char → List (List Char)
  | [] => []
  | c :: rest =>
    if c = '\n' then [c] :: splitLines rest
    else
      match splitLines rest with
      | [] => [[c]]
      | line :: lines => (c :: line) :: lines

def chomp (line : List Char) : List Char :=
  match line.reverse with
  | '\n' :: '\r' :: rest | '\n' :: rest => rest.reverse
  | _ => line

/-- Joins lines that end inside quotes to those that follow. A last `none` is a text that ends
where its line does not. -/
def logicalLines : List Char → Position → List (List Char) → List (Option (List Char))
  | _, .plain, [] => []
  | _, _, [] => [none]
  | held, position, line :: lines =>
    if (Text.trimStart (held ++ line)).head? = some '#' then
      some [] :: logicalLines [] .plain lines
    else
      match scan position line with
      | (kept, none) => some (held ++ kept) :: logicalLines [] .plain lines
      | (_, some .plain) => some (chomp (held ++ line)) :: logicalLines [] .plain lines
      | (_, some after) => logicalLines (held ++ line) after lines

def isNameChar (c : Char) : Bool := c.isAlphanum || c = '_' || c = '.'

def name? (cs : List Char) : Option (String × List Char) :=
  match cs with
  | c :: _ =>
    if c.isAlpha || c = '_' then
      some (String.ofList (cs.takeWhile isNameChar), cs.dropWhile isNameChar)
    else none
  | [] => none

def assignment? (cs : List Char) : Option (String × List Char) := do
  let (name, rest) ← name? cs
  match Text.trimStart rest with
  | '=' :: tail => some (name, tail)
  | rest =>
    if name = "export" then
      let (name, rest) ← name? rest
      match Text.trimStart rest with
      | '=' :: tail => some (name, tail)
      | _ => none
    else none

inductive Mode
  | plain
  | single
  | double
  | escape (inDouble : Bool)
  | bare (inDouble : Bool)
  | braced (inDouble : Bool)
  | done

def Mode.leave (inDouble : Bool) : Mode := if inDouble then .double else .plain

def extendsName (c : Char) : Bool := c.isAlphanum || (c.toNat ≥ 0x80 && !Text.isBlank c)

def value (lookup : String → String) : Mode → List Char → List Char → Option (List Char)
  | .plain, _, [] | .escape false, _, [] | .done, _, [] => some []
  | .bare false, name, [] => some (lookup (String.ofList name)).toList
  | _, _, [] => none
  | .done, _, c :: rest =>
    if c = ' ' ∨ c = '\t' then value lookup .done [] rest
    else if c = '#' then some []
    else none
  | .escape inDouble, _, c :: rest =>
    if c = '\\' ∨ c = '\'' ∨ c = '"' ∨ c = '$' ∨ c = ' ' then
      (value lookup (.leave inDouble) [] rest).map (c :: ·)
    else if c = 'n' then (value lookup (.leave inDouble) [] rest).map ('\n' :: ·)
    else none
  | .single, _, c :: rest =>
    if c = '\'' then value lookup .plain [] rest
    else (value lookup .single [] rest).map (c :: ·)
  | .bare inDouble, name, c :: rest =>
    if extendsName c then value lookup (.bare inDouble) (name ++ [c]) rest
    else if c = '\x7b' ∧ name = [] then value lookup (.braced inDouble) [] rest
    else
      let text := (lookup (String.ofList name)).toList
      if c = '$' then (value lookup (.bare inDouble) [] rest).map (text ++ ·)
      else (value lookup (.leave inDouble) [] rest).map (text ++ c :: ·)
  | .braced inDouble, name, c :: rest =>
    if c = '\x7d' then
      (value lookup (.leave inDouble) [] rest).map ((lookup (String.ofList name)).toList ++ ·)
    else value lookup (.braced inDouble) (name ++ [c]) rest
  | .double, _, c :: rest =>
    if c = '$' then value lookup (.bare true) [] rest
    else if c = '"' then value lookup .plain [] rest
    else if c = '\\' then value lookup (.escape true) [] rest
    else (value lookup .double [] rest).map (c :: ·)
  | .plain, _, c :: rest =>
    if c = '$' then value lookup (.bare false) [] rest
    else if c = '\'' then value lookup .single [] rest
    else if c = '"' then value lookup .double [] rest
    else if c = '\\' then value lookup (.escape false) [] rest
    else if c = ' ' ∨ c = '\t' then value lookup .done [] rest
    else (value lookup .plain [] rest).map (c :: ·)

def setLine (vars : Variables) (line : List Char) : Option Variables := do
  match Text.trim line with
  | [] | '#' :: _ => some vars
  | cs =>
    let (name, rest) ← assignment? cs
    let text ←
      match Text.trimStart rest with
      | [] | '#' :: _ => some []
      | cs => value (fun n => (vars.lookup n).getD "") .plain [] cs
    if (vars.lookup name).isSome then some vars
    else some ((name, String.ofList text) :: vars)

def setLines (vars : Variables) : List (Option (List Char)) → Variables
  | [] | none :: _ => vars
  | some line :: lines =>
    match setLine vars line with
    | none => vars
    | some vars' => setLines vars' lines

def load (vars : Variables) (text : String) : Variables :=
  let cs := match text.toList with
    | '\uFEFF' :: rest => rest
    | cs => cs
  setLines vars (logicalLines [] .plain (splitLines cs))

end EnvFile

end LedgerBroker
