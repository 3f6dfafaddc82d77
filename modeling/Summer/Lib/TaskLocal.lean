/-
Task-local variables.

The variable has a slot on every thread.  A scope swaps its value into the slot of the thread
for the time of a poll, so that it does not matter to a task which others are polled in
between, and on which threads (`results_run`).
-/
import Mathlib.Logic.Function.Basic

namespace TaskLocal

/-- A poll reads and writes the slot of the thread it runs on. -/
abbrev Poll (V R : Type*) := Option V → R × Option V

variable {T I V R : Type*}

/-- The poll of a future in a scope; afterwards the slot has its old value again. -/
def scope (v : V) (poll : Poll V R) : Poll V R := fun slot => ((poll (some v)).1, slot)

/-- The poll leaves the slot as it found it. -/
def Restores (poll : Poll V R) : Prop := ∀ slot, (poll slot).2 = slot

theorem restores_scope (v : V) (poll : Poll V R) : Restores (scope v poll) := fun _ => rfl

/-- The slots of the threads, and what the polls of each task have returned so far. -/
structure State (T I V R : Type*) where
  slot : T → Option V
  results : I → List R

def start : State T I V R := { slot := fun _ => none, results := fun _ => [] }

variable [DecidableEq T] [DecidableEq I]

/-- One poll; `tasks i k` is what the `k`-th poll of a task does. -/
def step (tasks : I → Nat → Poll V R) (s : State T I V R) (thread : T) (task : I) :
    State T I V R :=
  let polled := tasks task (s.results task).length (s.slot thread)
  { slot := Function.update s.slot thread polled.2
    results := Function.update s.results task (s.results task ++ [polled.1]) }

/-- The polls of a run, each with its thread. -/
def run (tasks : I → Nat → Poll V R) (polls : List (T × I)) : State T I V R :=
  polls.foldl (fun s poll => step tasks s poll.1 poll.2) start

/-- What a task returns when there is no other one. -/
def alone (tasks : I → Nat → Poll V R) (task : I) (n : Nat) : List R :=
  (List.range n).map fun k => (tasks task k none).1

/-- All slots are empty, and every task has returned what it returns alone. -/
structure Isolated (tasks : I → Nat → Poll V R) (s : State T I V R) : Prop where
  slot : ∀ thread, s.slot thread = none
  results : ∀ task, s.results task = alone tasks task (s.results task).length

theorem isolated_step {tasks : I → Nat → Poll V R} (hrestores : ∀ i k, Restores (tasks i k))
    {s : State T I V R} (h : Isolated tasks s) (thread : T) (task : I) :
    Isolated tasks (step tasks s thread task) := by
  constructor
  · intro thread'
    show Function.update s.slot thread _ thread' = none
    by_cases hthread : thread' = thread
    · rw [hthread, Function.update_self, hrestores, h.slot]
    · rw [Function.update_of_ne hthread, h.slot]
  · intro task'
    show Function.update s.results task _ task' =
      alone tasks task' (Function.update s.results task _ task').length
    by_cases htask : task' = task
    · subst htask
      rw [Function.update_self, List.length_append, List.length_singleton, alone,
        List.range_succ, List.map_append, h.slot]
      exact congrArg (· ++ _) (h.results task')
    · rw [Function.update_of_ne htask]
      exact h.results task'

theorem isolated_run {tasks : I → Nat → Poll V R} (hrestores : ∀ i k, Restores (tasks i k))
    (polls : List (T × I)) : Isolated tasks (run tasks polls) := by
  have hfold : ∀ s : State T I V R, Isolated tasks s →
      Isolated tasks (polls.foldl (fun s poll => step tasks s poll.1 poll.2) s) := by
    induction polls with
    | nil => exact fun s h => h
    | cons poll rest ih =>
        intro s h
        exact ih _ (isolated_step hrestores h poll.1 poll.2)
  exact hfold start ⟨fun _ => rfl, fun _ => rfl⟩

/-- Whatever a task returns in a run, it returns alone. -/
theorem results_run {tasks : I → Nat → Poll V R} (hrestores : ∀ i k, Restores (tasks i k))
    {polls : List (T × I)} {task : I} {result : R}
    (h : result ∈ (run tasks polls).results task) : ∃ k, result = (tasks task k none).1 := by
  rw [(isolated_run hrestores polls).results task, alone, List.mem_map] at h
  obtain ⟨k, _, hk⟩ := h
  exact ⟨k, hk.symm⟩

end TaskLocal
