set_option autoImplicit false

namespace LedgerBroker.Url.Punycode

def digitChar (d : Nat) : Char := Char.ofNat (if d < 26 then 0x61 + d else 0x16 + d)

def digitValue? (c : Char) : Option Nat :=
  let n := c.toNat
  if 0x61 ≤ n ∧ n ≤ 0x7A then some (n - 0x61)
  else if 0x41 ≤ n ∧ n ≤ 0x5A then some (n - 0x41)
  else if 0x30 ≤ n ∧ n ≤ 0x39 then some (n - 0x16)
  else none

def threshold (place bias : Nat) : Nat := min 26 (max 1 (place - bias))

theorem threshold_pos (place bias : Nat) : 1 ≤ threshold place bias := by
  unfold threshold
  omega

def scale (delta place : Nat) : Nat :=
  if 455 < delta then scale (delta / 35) (place + 36) else place + 36 * delta / (delta + 38)
termination_by delta
decreasing_by omega

def adapt (delta count : Nat) (isFirst : Bool) : Nat :=
  let delta := if isFirst then delta / 700 else delta / 2
  scale (delta + delta / count) 0

def writeNumber (bias place n : Nat) : List Char :=
  let t := threshold place bias
  if n < t then [digitChar n]
  else digitChar (t + (n - t) % (36 - t)) :: writeNumber bias (place + 36) ((n - t) / (36 - t))
termination_by n
decreasing_by
  have := threshold_pos place bias
  have := Nat.div_le_self (n - threshold place bias) (36 - threshold place bias)
  omega

structure Progress where
  delta : Nat
  bias : Nat := 72
  count : Nat

def pass (m basics : Nat) : List Char → Progress → List Char × Progress
  | [], p => ([], p)
  | c :: rest, p =>
    if c.toNat < m then pass m basics rest { p with delta := p.delta + 1 }
    else if c.toNat = m then
      let (out, q) := pass m basics rest {
        delta := 0
        bias := adapt p.delta (p.count + 1) (p.count = basics)
        count := p.count + 1 }
      (writeNumber p.bias 36 p.delta ++ out, q)
    else pass m basics rest p

def passes (label : List Char) (basics : Nat) : Nat → List Nat → Progress → List Char
  | _, [], _ => []
  | next, m :: ms, p =>
    let (out, q) := pass m basics label { p with delta := p.delta + (m - next) * (p.count + 1) }
    out ++ passes label basics (m + 1) ms { q with delta := q.delta + 1 }

def encode (label : List Char) : List Char :=
  let basics := label.filter (·.toNat < 0x80)
  let others := ((label.map (·.toNat)).filter (0x80 ≤ ·)).mergeSort.eraseDups
  basics ++ (if basics = [] then [] else ['-']) ++
    passes label basics.length 0x80 others { delta := 0, count := basics.length }

def readNumber? (bias : Nat) : Nat → Nat → Nat → List Char → Option (Nat × List Char)
  | _, _, _, [] => none
  | place, weight, n, c :: rest => do
    let d ← digitValue? c
    let t := threshold place bias
    let n := n + d * weight
    if d < t then some (n, rest) else readNumber? bias (place + 36) (weight * (36 - t)) n rest

theorem length_of_readNumber? {bias place weight n m : Nat} {cs rest : List Char}
    (h : readNumber? bias place weight n cs = some (m, rest)) : rest.length < cs.length := by
  induction cs generalizing place weight n with
  | nil => simp [readNumber?] at h
  | cons c cs ih =>
    simp only [readNumber?] at h
    cases hd : digitValue? c with
    | none => simp [hd] at h
    | some d =>
      simp only [hd, Option.bind_eq_bind, Option.bind_some] at h
      split at h
      · simp_all
      · have := ih h
        simp only [List.length_cons]
        omega

def insertAll (label : List Char) (next index bias : Nat) (cs : List Char) : Option (List Char) :=
  if cs.isEmpty then some label
  else
    match _h : readNumber? bias 36 1 index cs with
    | none => none
    | some (reached, rest) =>
      let count := label.length + 1
      let next := next + reached / count
      let place := reached % count
      if next.isValidChar then
        insertAll (label.take place ++ Char.ofNat next :: label.drop place) next (place + 1)
          (adapt (reached - index) count (index = 0)) rest
      else none
termination_by cs.length
decreasing_by exact length_of_readNumber? ‹_›

def splitLastHyphen (cs : List Char) : List Char × List Char :=
  let after := (cs.reverse.takeWhile (· ≠ '-')).reverse
  (cs.take (cs.length - after.length - 1), after)

def decode? (cs : List Char) : Option (List Char) :=
  let (basics, numbers) := splitLastHyphen cs
  if basics.all (·.toNat < 0x80) then insertAll basics 0x80 0 72 numbers else none

end LedgerBroker.Url.Punycode
