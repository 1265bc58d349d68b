import LedgerBroker.Proofs.SimulatedDirector
import LedgerBroker.Proofs.TimestampReading
import Mathlib.Data.List.Nodup

set_option autoImplicit false

namespace LedgerBroker

namespace Numeral

theorem le_foldl_digits (ds : List Nat) (start : Nat) :
    start ≤ ds.foldl (fun n d => n * 10 + d) start := by
  induction ds generalizing start with
  | nil => exact Nat.le_refl start
  | cons d ds ih =>
    have more := ih (start * 10 + d)
    rw [List.foldl_cons]
    omega

theorem accumulate_digits {bound : Nat} (ds : List Nat) (small : ∀ d ∈ ds, d < 10) (start : Nat)
    (fits : ds.foldl (fun n d => n * 10 + d) start < bound) :
    accumulate bound start (ds.map digitChar) = .ok (ds.foldl (fun n d => n * 10 + d) start) := by
  induction ds generalizing start with
  | nil => rfl
  | cons d ds ih =>
    have first := digitValue?_digitChar (small d List.mem_cons_self)
    -- Digits only make a number larger, so that every one on the way is below the bound too.
    have below : start * 10 + d < bound := Nat.lt_of_le_of_lt (le_foldl_digits ds _) fits
    have others := ih (fun e mem => small e (List.mem_cons_of_mem _ mem)) (start * 10 + d) fits
    simp only [List.map_cons, accumulate, first, if_pos below, List.foldl_cons, others]

theorem read_decimal {bound n : Nat} (fits : n < bound) : read bound (decimal n) = .ok n := by
  have unsigned : ∀ d < 10, digitChar d ≠ '+' := by decide
  have value : (digits n).foldl (fun n d => n * 10 + d) 0 = n :=
    Timestamp.Reading.ofDigits_digits n
  have small := digits_lt n
  have accumulated : accumulate bound 0 ((digits n).map digitChar) =
      .ok ((digits n).foldl (fun n d => n * 10 + d) 0) :=
    accumulate_digits (digits n) small 0 (by rwa [value])
  rw [value] at accumulated
  cases list : digits n with
  | nil =>
    rw [digits] at list
    split at list <;> simp at list
  | cons d ds =>
    rw [list] at accumulated small
    have plain := unsigned d (small d List.mem_cons_self)
    simp only [read, decimal, list, List.map_cons, String.toList_ofList] at accumulated ⊢
    split
    next none => cases none
    next sign => exact absurd (List.cons.inj sign).1 plain
    next sign => exact absurd (List.cons.inj sign).1 plain
    next => exact accumulated

theorem decimal_injective : Function.Injective decimal := by
  intro m n same
  have left : read (max m n + 1) (decimal m) = .ok m := read_decimal (by omega)
  have right : read (max m n + 1) (decimal n) = .ok n := read_decimal (by omega)
  rw [same, right] at left
  exact (Except.ok.inj left).symm

end Numeral

theorem Task.id_of_token {t u : Task} (same : t.token = u.token) : t.id = u.id :=
  Numeral.decimal_injective same

namespace SimulatedDirector

variable {s s' : SimulatedDirector} {task other : Task}

structure Starts (s s' : SimulatedDirector) (task : Task) : Prop where
  number : task.id = s.nextTask
  tasks : s'.tasks = s.tasks ++ [task]
  next : s'.nextTask = s.nextTask + 1

inductive Progress (s s' : SimulatedDirector) : Prop
  | still (tasks : s'.tasks = s.tasks) (next : s'.nextTask = s.nextTask)
  | started (task : Task) (starts : Starts s s' task)
  | moved (number : Nat) (state : TaskState) (next : s'.nextTask = s.nextTask)
      (tasks : s'.tasks = s.tasks.map fun t => if t.id = number then { t with state } else t)

theorem Progress.setTaskState (token : String) (state : TaskState) :
    Progress s (s.setTaskState token state) := by
  unfold SimulatedDirector.setTaskState
  split
  next => exact .still rfl rfl
  next id _ => exact .moved id state rfl rfl

theorem Progress.next_le (h : Progress s s') : s'.nextTask ≤ s.nextTask + 1 := by
  cases h with
  | still _ next | moved _ _ next => omega
  | started _ starts => exact Nat.le_of_eq starts.next

def Knows (s : SimulatedDirector) (task : Task) : Prop :=
  ∃ state, { task with state := state } ∈ s.tasks

theorem Starts.knows (h : Starts s s' task) : s'.Knows task :=
  ⟨task.state, by simp [h.tasks]⟩

theorem Knows.progress (h : s.Knows task) (progress : Progress s s') : s'.Knows task := by
  obtain ⟨state, mem⟩ := h
  cases progress with
  | still tasks => exact ⟨state, tasks ▸ mem⟩
  | started _ starts => exact ⟨state, by simp [starts.tasks, mem]⟩
  | moved number state' _ tasks =>
    have moved := List.mem_map_of_mem
      (f := fun t : Task => if t.id = number then { t with state := state' } else t) mem
    rw [← tasks] at moved
    by_cases own : task.id = number
    · exact ⟨state', by simpa [own] using moved⟩
    · exact ⟨state, by simpa [own] using moved⟩

structure Numbered (s : SimulatedDirector) : Prop where
  ids : s.tasks.map (·.id) = List.range' 1 s.tasks.length
  next : s.nextTask = s.tasks.length + 1

namespace Numbered

theorem progress (h : Numbered s) (progress : Progress s s') : Numbered s' := by
  cases progress with
  | still tasks next => exact ⟨by rw [tasks, h.ids], by rw [tasks, next, h.next]⟩
  | started task starts =>
    refine ⟨?_, by simp [starts.tasks, starts.next, h.next]⟩
    have last : task.id = 1 + s.tasks.length := by
      rw [starts.number, h.next, Nat.add_comm]
    simp [starts.tasks, h.ids, last, List.range'_concat]
  | moved number state next tasks =>
    -- A task that moves on keeps its number.
    have ids : (fun t : Task => t.id) ∘
        (fun t => if t.id = number then { t with state } else t) = (·.id) := by
      funext t
      by_cases own : t.id = number <;> simp [own]
    exact ⟨by rw [tasks, List.map_map, ids, h.ids, List.length_map],
      by rw [tasks, next, h.next, List.length_map]⟩

theorem below (h : Numbered s) (known : s.Knows task) : task.id < s.nextTask := by
  obtain ⟨state, mem⟩ := known
  have id := List.mem_map_of_mem (f := (·.id)) mem
  rw [h.ids, List.mem_range'_1] at id
  have := h.next
  simp only at id
  omega

theorem unique (h : Numbered s) {t u : Task} (mem : t ∈ s.tasks) (mem' : u ∈ s.tasks)
    (same : t.id = u.id) : t = u := by
  have nodup : (s.tasks.map (·.id)).Nodup := h.ids ▸ List.nodup_range'
  exact List.inj_on_of_nodup_map nodup mem mem' same

theorem description_of_token (h : Numbered s) (known : s.Knows task) (known' : s.Knows other)
    (same : task.token = other.token) : task.description = other.description := by
  obtain ⟨state, mem⟩ := known
  obtain ⟨state', mem'⟩ := known'
  have both := h.unique mem mem' (Task.id_of_token same)
  simpa using congrArg Task.description both

theorem tells (h : Numbered s) (known : s.Knows task) (fits : task.id < Numeral.bound64) :
    ∃ state, (director.task task.token).exec s = (.ok { task with state := state }, s) := by
  obtain ⟨state, mem⟩ := known
  have number : taskNumber? task.token = some task.id := by
    simp [taskNumber?, Task.token, Numeral.read_decimal fits, Except.toOption]
  have found : s.findTask? task.token = some { task with state := state } := by
    rw [findTask?, number, Option.bind_some]
    cases search : s.tasks.find? (·.id = task.id) with
    | none =>
      have missed := List.find?_eq_none.mp search _ mem
      simp at missed
    | some t =>
      have own : t.id = task.id := by simpa using List.find?_some search
      exact congrArg some (h.unique (List.mem_of_find?_eq_some search) mem own)
  exact ⟨state, by simp [director, Call.query, found]⟩

end Numbered

section Calls

variable {x : Director.Outages SimulatedDirector} {m : Manifest} {name : String}

theorem starts_of_created (h : ((faulty.createDeployment m).exec x).1 = .ok task) :
    Starts x.service ((faulty.createDeployment m).exec x).2.service task ∧
      task.description = "create deployment " ++ m.name := by
  obtain ⟨done, same⟩ := exec_guard_ok h
  have same : ((faulty.createDeployment m).exec x).2.service =
      ((director.createDeployment m).exec x.service).2 := same
  rw [same]
  simp only [director, Call.exec_of] at done ⊢
  split at done
  next => cases done
  next off =>
    obtain rfl := Except.ok.inj done
    rw [if_neg off]
    exact ⟨⟨rfl, rfl, rfl⟩, rfl⟩

theorem starts_of_deleted (h : ((faulty.deleteDeployment name).exec x).1 = .ok task) :
    Starts x.service ((faulty.deleteDeployment name).exec x).2.service task ∧
      task.description = "delete deployment " ++ name := by
  obtain ⟨done, same⟩ := exec_guard_ok h
  have same : ((faulty.deleteDeployment name).exec x).2.service =
      ((director.deleteDeployment name).exec x.service).2 := same
  rw [same]
  obtain rfl := Except.ok.inj done
  exact ⟨⟨rfl, rfl, rfl⟩, rfl⟩

end Calls

end SimulatedDirector

end LedgerBroker
