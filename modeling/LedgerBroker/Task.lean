import LedgerBroker.Json.Record

set_option autoImplicit false

namespace LedgerBroker

/-- Whatever the Director reports beside the three states it may go through is a failure. -/
inductive TaskState
  | queued
  | processing
  | done
  | other (word : String)
  deriving DecidableEq, Repr

namespace TaskState

def ofString (word : String) : TaskState :=
  if word = "queued" then queued
  else if word = "processing" then processing
  else if word = "done" then done
  else other word

def toString : TaskState → String
  | queued => "queued"
  | processing => "processing"
  | done => "done"
  | other word => word

@[simp] theorem toString_ofString (word : String) : (ofString word).toString = word := by
  unfold ofString
  split
  · simp_all [toString]
  · split
    · simp_all [toString]
    · split <;> simp_all [toString]

def isInFlight : TaskState → Bool
  | queued | processing => true
  | done | other _ => false

def isDone : TaskState → Bool
  | done => true
  | queued | processing | other _ => false

def isOther : TaskState → Bool
  | other _ => true
  | queued | processing | done => false

end TaskState

structure Task where
  id : Nat
  state : TaskState
  description : String
  result : Option String
  user : String
  deriving DecidableEq, Repr

namespace Task

def token (task : Task) : String := Numeral.decimal task.id

def json (task : Task) : Json :=
  .obj [
    ("id", .nat task.id),
    ("state", .str task.state.toString),
    ("description", .str task.description),
    ("result", Json.strOrNull task.result),
    ("user", .str task.user)]

structure Draft where
  id : Option Nat := none
  state : Option String := none
  description : Option String := none
  result : Option (Option String) := none
  user : Option String := none

def Draft.finish (d : Draft) : Option Task := do
  return {
    id := ← d.id
    state := .ofString (← d.state)
    description := d.description.getD ""
    result := d.result.getD none
    user := d.user.getD "" }

open Json.Reader in
def reader : Json.Reader Task :=
  record ({} : Draft) [
    .of "id" (·.id) (fun d v => { d with id := some v }) (natBelow Numeral.bound64),
    .of "state" (·.state) (fun d v => { d with state := some v }) string,
    .of "description" (·.description) (fun d v => { d with description := some v }) string,
    .of "result" (·.result) (fun d v => { d with result := some v }) (optional string),
    .of "user" (·.user) (fun d v => { d with user := some v }) string] Draft.finish

end Task

inductive OperationKind
  | provision
  | deprovision
  deriving DecidableEq, Repr

inductive OperationState
  | inProgress
  | succeeded
  | failed
  deriving DecidableEq, Repr

namespace OperationState

def ofTaskState : TaskState → OperationState
  | .queued | .processing => inProgress
  | .done => succeeded
  | .other _ => failed

def toString : OperationState → String
  | inProgress => "in progress"
  | succeeded => "succeeded"
  | failed => "failed"

def ofString? (word : String) : Option OperationState :=
  [inProgress, succeeded, failed].find? (·.toString = word)

end OperationState

structure LastOperation where
  state : OperationState
  description : String
  deriving DecidableEq, Repr

namespace LastOperation

def describe : OperationState → OperationKind → String
  | .inProgress, .provision => "Still working to get that block chain deployed"
  | .inProgress, .deprovision => "Still working to delete that block chain"
  | .succeeded, .provision => "Yipee, block chain is deployed"
  | .succeeded, .deprovision => "Block chain gone :( Please come back and create another one"
  | .failed, .provision => "Ooops, could not deploy block chain"
  | .failed, .deprovision => "No we could not delete the block chain..."

def ofTaskState (kind : OperationKind) (state : TaskState) : LastOperation :=
  ⟨.ofTaskState state, describe (.ofTaskState state) kind⟩

def json (o : LastOperation) : Json :=
  .obj [("state", .str o.state.toString), ("description", .str o.description)]

structure Draft where
  state : Option OperationState := none
  description : Option String := none

open Json.Reader in
def reader : Json.Reader LastOperation :=
  record ({} : Draft) [
    .of "state" (·.state) (fun d v => { d with state := some v })
      (choice OperationState.ofString?),
    .of "description" (·.description) (fun d v => { d with description := some v }) string]
    fun d => do return ⟨← d.state, ← d.description⟩

end LastOperation

end LedgerBroker
