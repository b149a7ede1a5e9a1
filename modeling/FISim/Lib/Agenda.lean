import Mathlib.Algebra.BigOperators.Group.Finset.Basic
import Mathlib.Algebra.Order.BigOperators.Group.Finset
import FISim.Lib.Transition

/-!
Tasks that are pending at most once each, with the moments at which they are due.
What is due up to a moment can be done one task after the other, in order.
-/

namespace Agenda

universe u v w

variable {Task : Type u}

def Timely (due : Task → Option ℕ) (moment : ℕ) : Prop := ∀ task, ∀ time ∈ due task, moment ≤ time

instance [Fintype Task] (due : Task → Option ℕ) (moment : ℕ) : Decidable (Timely due moment) :=
  inferInstanceAs (Decidable (∀ task, ∀ time ∈ due task, moment ≤ time))

theorem exists_first {due : Task → Option ℕ} {goal : ℕ}
    (pending : ∃ task, ∃ time ∈ due task, time ≤ goal) :
    ∃ task time, due task = some time ∧ time ≤ goal ∧ Timely due time := by
  classical
  have some_ : ∃ time task, due task = some time := by
    obtain ⟨task, time, member, -⟩ := pending
    exact ⟨time, task, member⟩
  obtain ⟨task, found⟩ := Nat.find_spec some_
  obtain ⟨other, time, member, below⟩ := pending
  refine ⟨task, Nat.find some_, found, ?_, ?_⟩
  · exact Nat.le_trans (Nat.find_min' some_ ⟨other, member⟩) below
  · intro another moment isDue
    exact Nat.find_min' some_ ⟨another, isDue⟩

def toGoal (goal : ℕ) : Option ℕ → ℕ
  | none => 0
  | some time => goal + 1 - time

/-- How far the pending tasks are from a moment. -/
def slack [Fintype Task] (due : Task → Option ℕ) (goal : ℕ) : ℕ := ∑ task, toGoal goal (due task)

/-- A task is done: it is due later again or not at all, and the others are due as before or not at
all. -/
structure Done (before after : Task → Option ℕ) (task : Task) (time : ℕ) : Prop where
  self : ∀ next ∈ after task, time < next
  others : ∀ other, other ≠ task → after other = none ∨ after other = before other

theorem Done.slack_lt [Fintype Task] {before after : Task → Option ℕ} {task : Task}
    {time goal : ℕ} (done : Done before after task time) (was : before task = some time)
    (below : time ≤ goal) : slack after goal < slack before goal := by
  refine Finset.sum_lt_sum ?_ ⟨task, Finset.mem_univ task, ?_⟩
  · intro other _
    by_cases same : other = task
    · rw [same, was]
      cases again : after task with
      | none => exact Nat.zero_le _
      | some next =>
          have later := done.self next again
          simp only [toGoal]
          omega
    · rcases done.others other same with gone | kept
      · rw [gone]
        exact Nat.zero_le _
      · rw [kept]
  · rw [was]
    cases again : after task with
    | none =>
        simp only [toGoal]
        omega
    | some next =>
        have later := done.self next again
        simp only [toGoal]
        omega

theorem done_update [DecidableEq Task] {before : Task → Option ℕ} {task : Task} {time : ℕ}
    {next : Option ℕ} (later : ∀ moment ∈ next, time < moment) :
    Done before (Function.update (Function.update before task none) task next) task time := by
  rw [Function.update_idem]
  refine ⟨?_, fun other different => Or.inr (Function.update_of_ne different _ _)⟩
  rw [Function.update_self]
  exact later

theorem Done.cancel [DecidableEq Task] {before after : Task → Option ℕ} {task : Task} {time : ℕ}
    (done : Done before after task time) (cancelled : Task) :
    Done before (Function.update after cancelled none) task time := by
  constructor
  · intro next isDue
    by_cases same : task = cancelled
    · rw [same, Function.update_self] at isDue
      cases isDue
    · rw [Function.update_of_ne same] at isDue
      exact done.self next isDue
  · intro other different
    by_cases same : other = cancelled
    · rw [same, Function.update_self]
      exact Or.inl rfl
    · rw [Function.update_of_ne same]
      exact done.others other different

theorem Done.timely {before after : Task → Option ℕ} {task : Task} {time : ℕ}
    (done : Done before after task time) (first : Timely before time) : Timely after time := by
  intro other moment isDue
  by_cases same : other = task
  · rw [same] at isDue
    exact Nat.le_of_lt (done.self moment isDue)
  · rcases done.others other same with gone | kept
    · rw [gone] at isDue
      cases isDue
    · rw [kept] at isDue
      exact first other moment isDue

section Settle

open Transition

variable {State : Type v} {Action : Type w} {step : State → Action → Option State}
variable [Fintype Task] {due : State → Task → Option ℕ} {fire : Task → Action}

/-- The rule of the agenda: where every task that is due first can be done and keeps an invariant,
all that is due up to a moment gets done. -/
theorem settle {inv : State → Prop} {goal : ℕ}
    (goes : ∀ state task time, inv state → due state task = some time → time ≤ goal →
      Timely (due state) time →
        ∃ next, step state (fire task) = some next ∧ inv next ∧ Done (due state) (due next) task time)
    {start : State} (initial : inv start) :
    ∃ actions last, run step start actions = some last ∧ inv last ∧
      ∀ task, ∀ time ∈ due last task, goal < time := by
  generalize measure : slack (due start) goal = left
  induction left using Nat.strongRecOn generalizing start with
  | ind left ih =>
      by_cases pending : ∃ task, ∃ time ∈ due start task, time ≤ goal
      · obtain ⟨task, time, isDue, below, first⟩ := exists_first pending
        obtain ⟨next, fired, kept, done⟩ := goes start task time initial isDue below first
        obtain ⟨actions, last, ran, holds, settled⟩ :=
          ih _ (measure ▸ done.slack_lt isDue below) kept rfl
        refine ⟨fire task :: actions, last, ?_, holds, settled⟩
        rw [run_cons, fired]
        exact ran
      · refine ⟨[], start, rfl, initial, ?_⟩
        intro task time member
        by_contra early
        exact pending ⟨task, time, member, Nat.not_lt.mp early⟩

end Settle

end Agenda
