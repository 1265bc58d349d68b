import LedgerBroker.Proofs.RecordFields
import LedgerBroker.Task

set_option autoImplicit false

namespace LedgerBroker

namespace TaskState

/-- None of the three known words is held as some other word. -/
def Proper (state : TaskState) : Prop :=
  ∀ word ∈ ["queued", "processing", "done"], state ≠ .other word

theorem ofString_of_unknown {word : String} (unknown : word ∉ ["queued", "processing", "done"]) :
    ofString word = .other word := by
  simp only [List.mem_cons, List.not_mem_nil, or_false, not_or] at unknown
  rw [ofString, if_neg unknown.1, if_neg unknown.2.1, if_neg unknown.2.2]

theorem proper_ofString (word : String) : (ofString word).Proper := by
  intro known mem same
  -- A word that is held as any other is the word that was read.
  obtain rfl : known = word := by
    rw [← toString_ofString word, same]
    rfl
  simp only [List.mem_cons, List.not_mem_nil, or_false] at mem
  rcases mem with rfl | rfl | rfl <;> cases same

theorem ofString_toString_iff (state : TaskState) :
    ofString state.toString = state ↔ state.Proper := by
  refine ⟨fun same => same ▸ proper_ofString state.toString, fun proper => ?_⟩
  cases state with
  | queued | processing | done => rfl
  | other word => exact ofString_of_unknown fun known => proper word known rfl

/-- How a task stands is decided by the word for its state, and an operation is told to stand as its
task does. -/
structure Means (state : TaskState) (word : String) : Prop where
  once : [state.isInFlight, state.isDone, state.isOther].count true = 1
  inFlight : state.isInFlight = true ↔ word = "queued" ∨ word = "processing"
  done : state.isDone = true ↔ word = "done"
  failed : state.isOther = true ↔ word ∉ ["queued", "processing", "done"]
  reported : ∀ kind,
    ((LastOperation.ofTaskState kind state).state = .inProgress ↔ state.isInFlight = true) ∧
    ((LastOperation.ofTaskState kind state).state = .succeeded ↔ state.isDone = true) ∧
    ((LastOperation.ofTaskState kind state).state = .failed ↔ state.isOther = true)

theorem stands_once (state : TaskState) :
    [state.isInFlight, state.isDone, state.isOther].count true = 1 := by
  cases state <;> rfl

theorem reported_as (state : TaskState) (kind : OperationKind) :
    ((LastOperation.ofTaskState kind state).state = .inProgress ↔ state.isInFlight = true) ∧
    ((LastOperation.ofTaskState kind state).state = .succeeded ↔ state.isDone = true) ∧
    ((LastOperation.ofTaskState kind state).state = .failed ↔ state.isOther = true) := by
  cases state <;>
    simp [LastOperation.ofTaskState, OperationState.ofTaskState, isInFlight, isDone, isOther]

theorem means_ofString (word : String) : (ofString word).Means word := by
  have standing : ((ofString word).isInFlight = true ↔ word = "queued" ∨ word = "processing") ∧
      ((ofString word).isDone = true ↔ word = "done") ∧
      ((ofString word).isOther = true ↔ word ∉ ["queued", "processing", "done"]) := by
    by_cases known : word ∈ ["queued", "processing", "done"]
    · simp only [List.mem_cons, List.not_mem_nil, or_false] at known
      rcases known with rfl | rfl | rfl <;> decide
    · have unlike : word ≠ "queued" ∧ word ≠ "processing" ∧ word ≠ "done" := by simpa using known
      rw [ofString_of_unknown known]
      simp [isInFlight, isDone, isOther, unlike]
  exact ⟨stands_once _, standing.1, standing.2.1, standing.2.2, reported_as _⟩

end TaskState

namespace Task

open Json (Exact Field Tells spares_of_slot)
open Json.Reader (Slot Takes Fills string natBelow optional exact_slot exact_string exact_natBelow
  exact_optional)

def idSlot : Slot Draft :=
  .of "id" (·.id) (fun d v => { d with id := some v }) (natBelow Numeral.bound64)

def stateSlot : Slot Draft :=
  .of "state" (·.state) (fun d v => { d with state := some v }) string

def laterSlots : List (Slot Draft) := [
  .of "description" (·.description) (fun d v => { d with description := some v }) string,
  .of "result" (·.result) (fun d v => { d with result := some v }) (optional string),
  .of "user" (·.user) (fun d v => { d with user := some v }) string]

theorem reader_eq :
    reader = .record ({} : Draft) ([idSlot] ++ stateSlot :: laterSlots) Draft.finish := rfl

theorem takes {task : Task} (small : task.id < Numeral.bound64) :
    Takes reader task.json.write { task with state := .ofString task.state.toString } := by
  have fills : Fills ([idSlot] ++ stateSlot :: laterSlots) [
      ("id", .nat task.id),
      ("state", .str task.state.toString),
      ("description", .str task.description),
      ("result", Json.strOrNull task.result),
      ("user", .str task.user)] ({} : Draft)
      ⟨some task.id, some task.state.toString, some task.description, some task.result,
        some task.user⟩ := by
    refine .field rfl rfl (.slot (.natBelow small) _) ?_
    refine .field rfl rfl (.slot (.string task.state.toString) _) ?_
    refine .field rfl rfl (.slot (.string task.description) _) ?_
    refine .field rfl rfl (.slot (.strOrNull task.result) _) ?_
    exact .field rfl rfl (.slot (.string task.user) _) (.done _)
  exact .record fills rfl

theorem read_back_iff {task : Task} (small : task.id < Numeral.bound64) :
    reader.run task.json.write = .ok task ↔ task.state.Proper := by
  rw [(takes small).run, ← TaskState.ofString_toString_iff, Except.ok.injEq]
  constructor
  · intro same
    exact congrArg Task.state same
  · intro same
    rw [same]

theorem exact_slots : ∀ slot ∈ [idSlot] ++ stateSlot :: laterSlots, ∀ draft,
    Exact (slot.fill draft) := by
  intro slot mem draft
  simp only [laterSlots, List.cons_append, List.nil_append, List.mem_cons, List.not_mem_nil,
    or_false] at mem
  rcases mem with rfl | rfl | rfl | rfl | rfl
  · exact exact_slot (exact_natBelow _) draft
  · exact exact_slot exact_string draft
  · exact exact_slot exact_string draft
  · exact exact_slot (exact_optional exact_string) draft
  · exact exact_slot exact_string draft

theorem state_field :
    Field [idSlot] laterSlots "state" Draft.state fun d v => { d with state := some v } where
  first := by simp [idSlot, Slot.of]
  stores _ _ := rfl
  spares slot mem draft v filled gives := by
    simp only [laterSlots, List.cons_append, List.nil_append, List.mem_cons, List.not_mem_nil,
      or_false] at mem
    rcases mem with rfl | rfl | rfl | rfl
    · exact spares_of_slot (exact_natBelow _) gives fun _ _ => rfl
    · exact spares_of_slot exact_string gives fun _ _ => rfl
    · exact spares_of_slot (exact_optional exact_string) gives fun _ _ => rfl
    · exact spares_of_slot exact_string gives fun _ _ => rfl

theorem state_of_finish {d : Draft} {task : Task} (finished : d.finish = some task) :
    ∃ word, d.state = some word ∧ task.state = .ofString word := by
  unfold Draft.finish at finished
  obtain ⟨id, -, rest⟩ := Option.bind_eq_some_iff.mp finished
  obtain ⟨word, said, rest⟩ := Option.bind_eq_some_iff.mp rest
  obtain rfl := Option.some.inj rest
  exact ⟨word, said, rfl⟩

theorem tells_state {text : Bytes} {task : Task} (read : reader.run text = .ok task) :
    ∃ word, Tells "state" 1 word text ∧ task.state = .ofString word := by
  rw [reader_eq] at read
  obtain ⟨final, finished, tells⟩ := Json.tells_of_record exact_slots state_field rfl read
  obtain ⟨word, said, same⟩ := state_of_finish finished
  exact ⟨word, tells word said, same⟩

/-- A task is read from its document in the state that the one word for it there says, and this word
decides how its operation is reported. -/
theorem documents_keep_meaning :
    (∀ word, (TaskState.ofString word).toString = word) ∧
    (∀ state : TaskState, TaskState.ofString state.toString = state ↔ state.Proper) ∧
    (∀ task : Task, task.id < Numeral.bound64 →
      (reader.run task.json.write = .ok task ↔ task.state.Proper)) ∧
    ∀ (text : Bytes) (task : Task), reader.run text = .ok task →
      ∃ word, (∀ other, Tells "state" 1 other text ↔ other = word) ∧
        task.state = .ofString word ∧ task.state.Means word := by
  refine ⟨TaskState.toString_ofString, TaskState.ofString_toString_iff,
    fun task small => read_back_iff small, fun text task read => ?_⟩
  obtain ⟨word, tells, same⟩ := tells_state read
  refine ⟨word, fun other => ⟨fun told => told.unique (by decide) tells, ?_⟩, same, ?_⟩
  · rintro rfl
    exact tells
  · rw [same]
    exact TaskState.means_ofString word

section Sample

def respelled : Bytes := Bytes.ofString
  ("\x7b\"user\":\"ci\", \"state\" : \"\\u0064one\",\"more\":[1,\x7b\x7d]," ++
    "\"id\":18446744073709551615\x7d")

def finished : Task := ⟨18446744073709551615, .done, "", none, "ci"⟩

theorem read_respelled : reader.run respelled = .ok finished := by
  refine Call.ok_of_toOption ?_
  decide +kernel

theorem documents_keep_meaning_respelled :
    reader.run respelled = .ok finished ∧ Tells "state" 1 "done" respelled ∧
      finished.state.Means "done" ∧ finished.id < Numeral.bound64 ∧ finished.state.Proper ∧
      reader.run finished.json.write = .ok finished := by
  obtain ⟨-, -, reads, meaning⟩ := documents_keep_meaning
  obtain ⟨word, tells, same, means⟩ := meaning respelled finished read_respelled
  obtain rfl : "done" = word := by
    rw [← TaskState.toString_ofString word, ← same]
    rfl
  have small : finished.id < Numeral.bound64 := by decide
  have proper : finished.state.Proper := TaskState.proper_ofString "done"
  exact ⟨read_respelled, (tells "done").mpr rfl, means, small, proper,
    (reads finished small).mpr proper⟩

end Sample

end Task

end LedgerBroker
