import Mathlib.Data.Nat.Find
import Mathlib.Logic.Relation

/-!
Chains of a partial function: the iterates of an element until there is no next
one.  Where every chain ends the elements have ranks, and two elements of one
chain never lead to the same one.
-/

namespace Chain

universe u

variable {α : Type u} {next : α → Option α}

def climb (next : α → Option α) : ℕ → α → Option α
  | 0, start => some start
  | steps + 1, start => (next start).bind (climb next steps)

def Ends (next : α → Option α) (start : α) : Prop := ∃ steps, climb next steps start = none

theorem climb_succ (steps : ℕ) (start : α) :
    climb next (steps + 1) start = (climb next steps start).bind next := by
  induction steps generalizing start with
  | zero =>
      change (next start).bind some = next start
      exact Option.bind_fun_some _
  | succ steps ih =>
      change (next start).bind (climb next (steps + 1)) = _
      rw [show climb next (steps + 1) start = (next start).bind (climb next steps) from rfl,
        Option.bind_assoc]
      exact Option.bind_congr fun middle _ => ih middle

theorem exists_rank (ends : ∀ start, Ends next start) :
    ∃ rank : α → ℕ, ∀ start after, next start = some after → rank after < rank start := by
  classical
  refine ⟨fun start => Nat.find (ends start), ?_⟩
  intro start after stepped
  have stops := Nat.find_spec (ends start)
  rcases found : Nat.find (ends start) with _ | steps
  · rw [found] at stops
    cases stops
  · rw [found] at stops
    change (next start).bind (climb next steps) = none at stops
    rw [stepped] at stops
    have least : Nat.find (ends after) ≤ steps := Nat.find_min' (ends after) stops
    change Nat.find (ends after) < Nat.find (ends start)
    omega

def Above (next : α → Option α) : α → α → Prop :=
  Relation.ReflTransGen fun start after => next start = some after

theorem Above.rank_le {rank : α → ℕ}
    (down : ∀ start after, next start = some after → rank after < rank start) {low high : α}
    (above : Above next low high) : rank high ≤ rank low := by
  induction above with
  | refl => exact le_rfl
  | tail _ stepped ih => exact Nat.le_trans (Nat.le_of_lt (down _ _ stepped)) ih

theorem Above.of_step {low middle high : α} (above : Above next low high) (distinct : low ≠ high)
    (stepped : next low = some middle) : Above next middle high := by
  rcases Relation.ReflTransGen.cases_head above with same | ⟨other, first, rest⟩
  · exact absurd same distinct
  · rw [stepped, Option.some.injEq] at first
    exact first ▸ rest

theorem Above.total {low first second : α} (one : Above next low first)
    (other : Above next low second) : Above next first second ∨ Above next second first := by
  refine Relation.ReflTransGen.total_of_right_unique ?_ one other
  intro start after another stepped otherStepped
  exact Option.some.inj (stepped.symm.trans otherStepped)

theorem Above.below_unique (ends : ∀ start, Ends next start) {low first second high : α}
    (one : Above next low first) (other : Above next low second)
    (stepped : next first = some high) (otherStepped : next second = some high) :
    first = second := by
  obtain ⟨rank, down⟩ := exists_rank ends
  by_contra distinct
  rcases one.total other with above | above
  · have past := (above.of_step distinct stepped).rank_le down
    have later := down _ _ otherStepped
    omega
  · have past := (above.of_step (Ne.symm distinct) otherStepped).rank_le down
    have later := down _ _ stepped
    omega

theorem Above.not_below (ends : ∀ start, Ends next start) {low high : α}
    (above : Above next low high) : next high ≠ some low := by
  obtain ⟨rank, down⟩ := exists_rank ends
  intro stepped
  have back := down _ _ stepped
  have forth := above.rank_le down
  omega

/-- The second element is on the chain of the first, further on. -/
def Beyond (next : α → Option α) : α → α → Prop :=
  Relation.TransGen fun start after => next start = some after

theorem above_iff_beyond {low high : α} :
    Above next low high ↔ high = low ∨ Beyond next low high :=
  Relation.reflTransGen_iff_eq_or_transGen

theorem beyond_iff {low high : α} :
    Beyond next low high ↔ ∃ middle, next low = some middle ∧ Above next middle high :=
  Relation.TransGen.head'_iff

theorem not_beyond_of_end {low high : α} (stops : next low = none) : ¬ Beyond next low high := by
  intro beyond
  obtain ⟨middle, stepped, _⟩ := beyond_iff.mp beyond
  rw [stops] at stepped
  cases stepped

theorem not_beyond_self (ends : ∀ start, Ends next start) (start : α) :
    ¬ Beyond next start start := by
  intro beyond
  obtain ⟨middle, stepped, above⟩ := beyond_iff.mp beyond
  exact above.not_below ends stepped

end Chain
