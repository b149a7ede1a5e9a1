import Mathlib.Data.List.Count
import Mathlib.Data.List.Nodup
import Mathlib.Data.Nat.ModEq
import Mathlib.Tactic.Common

/-!
Taking turns.  A counter goes round a number of places one by one, and those
places that meet a condition are chosen.  Between two choices of one place every
other such place has its turn exactly once.
-/

namespace Turns

def turns (size start count : ℕ) : List ℕ :=
  (List.range count).map fun turn => (start + turn) % size

@[simp] theorem turns_zero (size start : ℕ) : turns size start 0 = [] := rfl

@[simp] theorem turns_length (size start count : ℕ) : (turns size start count).length = count := by
  simp [turns]

theorem turns_add (size start first second : ℕ) :
    turns size start (first + second) =
      turns size start first ++ turns size (start + first) second := by
  simp [turns, List.range_add, Function.comp_def, Nat.add_assoc]

theorem turns_succ (size start count : ℕ) :
    turns size start (count + 1) = turns size start count ++ [(start + count) % size] := by
  rw [turns_add]
  rfl

theorem turns_getElem? {size start count turn : ℕ} (bound : turn < count) :
    (turns size start count)[turn]? = some ((start + turn) % size) := by
  simp [turns, bound]

theorem mem_turns {size start count place : ℕ} :
    place ∈ turns size start count ↔ ∃ turn < count, (start + turn) % size = place := by
  simp [turns]

theorem exists_turn {size place : ℕ} (start : ℕ) (bound : place < size) :
    ∃ turn < size, (start + turn) % size = place := by
  have small := Nat.mod_lt start (by omega : size > 0)
  have split := Nat.div_add_mod start size
  by_cases ahead : start % size ≤ place
  · refine ⟨place - start % size, by omega, ?_⟩
    have reached : start + (place - start % size) = place + size * (start / size) := by omega
    rw [reached, Nat.add_mul_mod_self_left, Nat.mod_eq_of_lt bound]
  · refine ⟨size + place - start % size, by omega, ?_⟩
    have reached : start + (size + place - start % size) = place + size * (start / size + 1) := by
      rw [Nat.mul_add]
      omega
    rw [reached, Nat.add_mul_mod_self_left, Nat.mod_eq_of_lt bound]

theorem turns_nodup {size start count : ℕ} (within : count ≤ size) :
    (turns size start count).Nodup := by
  unfold turns
  refine List.Nodup.map_on ?_ List.nodup_range
  intro first inFirst second inSecond same
  simp only [List.mem_range] at inFirst inSecond
  have congruent : Nat.ModEq size first second := Nat.ModEq.add_left_cancel' start same
  exact congruent.eq_of_lt_of_lt (by omega) (by omega)

theorem count_round {size place : ℕ} (start : ℕ) (bound : place < size) :
    (turns size start size).count place = 1 :=
  List.count_eq_one_of_mem (turns_nodup (Nat.le_refl size)) (mem_turns.mpr (exists_turn start bound))

theorem count_rounds {size place : ℕ} (start rounds rest : ℕ) (bound : place < size) :
    (turns size start (size * rounds + rest)).count place =
      rounds + (turns size (start + size * rounds) rest).count place := by
  induction rounds generalizing start with
  | zero => simp
  | succ rounds ih =>
      have split : size * (rounds + 1) + rest = size + (size * rounds + rest) := by
        rw [Nat.mul_add]
        omega
      have shifted : start + size * (rounds + 1) = start + size + size * rounds := by
        rw [Nat.mul_add]
        omega
      rw [split, turns_add, List.count_append, count_round start bound, ih, shifted]
      omega

theorem count_le_count {size first second : ℕ} (start count : ℕ) (inside : first < size)
    (bound : second < size) :
    (turns size start count).count first ≤ (turns size start count).count second + 1 := by
  have short : count % size < size := Nat.mod_lt count (by omega)
  have once : (turns size (start + size * (count / size)) (count % size)).count first ≤ 1 :=
    List.nodup_iff_count_le_one.mp (turns_nodup (Nat.le_of_lt short)) first
  rw [← Nat.div_add_mod count size, count_rounds _ _ _ inside, count_rounds _ _ _ bound]
  omega

theorem round_between {size start count place : ℕ} {before middle after : List ℕ}
    (taken : turns size start count = before ++ place :: (middle ++ place :: after))
    (absent : place ∉ middle) :
    place :: middle = turns size (start + before.length) size := by
  have total : count = before.length + ((middle.length + 1) + (after.length + 1)) := by
    rw [← turns_length size start count, taken]
    simp only [List.length_append, List.length_cons]
    omega
  rw [total, turns_add, turns_add] at taken
  obtain ⟨-, rest⟩ := List.append_inj taken (by simp)
  rw [← List.cons_append] at rest
  obtain ⟨stretch, next⟩ := List.append_inj rest (by simp)
  have here : (start + before.length) % size = place := by
    have first := congrArg (fun taken => taken[0]?) stretch
    simpa only [turns_getElem? (Nat.succ_pos _), List.getElem?_cons_zero, Option.some.injEq,
      Nat.add_zero] using first
  have there : (start + before.length + (middle.length + 1)) % size = place := by
    have first := congrArg (fun taken => taken[0]?) next
    simpa only [turns_getElem? (Nat.succ_pos _), List.getElem?_cons_zero, Option.some.injEq,
      Nat.add_zero] using first
  have divides : size ∣ middle.length + 1 := by
    have congruent : Nat.ModEq size (start + before.length + (middle.length + 1))
        (start + before.length + 0) := there.trans here.symm
    exact (Nat.modEq_zero_iff_dvd).mp (Nat.ModEq.add_left_cancel' _ congruent)
  have enough : size ≤ middle.length + 1 := Nat.le_of_dvd (by omega) divides
  have exactly : size = middle.length + 1 := by
    by_contra different
    apply absent
    have again : (place :: middle)[size]? = some place := by
      rw [← stretch, turns_getElem? (by omega), Nat.add_mod_right, here]
    cases size with
    | zero => simp at divides
    | succ size => exact List.mem_of_getElem? again
  rw [← stretch, ← exactly]

/-- What is chosen is fair: another place that meets the condition is chosen exactly once between
two choices of one place, and no two of them are ever more than one choice apart. -/
structure Fair (meets : ℕ → Prop) (chosen : List ℕ) : Prop where
  between : ∀ before middle after place other,
    chosen = before ++ place :: (middle ++ place :: after) → place ∉ middle →
      meets other → other ≠ place → middle.count other = 1
  even : ∀ place other, meets place → meets other → chosen.count place ≤ chosen.count other + 1

theorem fair_filter {size start count : ℕ} {meets : ℕ → Prop} [DecidablePred meets]
    (bound : ∀ place, meets place → place < size) :
    Fair meets ((turns size start count).filter fun place => meets place) := by
  constructor
  · intro before middle after place other chosen absent met different
    obtain ⟨first, rest, split, -, chosenRest⟩ := List.filter_eq_append_iff.mp chosen
    obtain ⟨skipped, later, rfl, -, meetsPlace, chosenLater⟩ := List.filter_eq_cons_iff.mp chosenRest
    obtain ⟨passed, final, rfl, chosenPassed, chosenFinal⟩ := List.filter_eq_append_iff.mp chosenLater
    obtain ⟨missed, final, rfl, unmet, -, -⟩ := List.filter_eq_cons_iff.mp chosenFinal
    have whole : turns size start count =
        (first ++ skipped) ++ place :: ((passed ++ missed) ++ place :: final) := by
      rw [split]
      simp only [List.append_assoc]
    have never : place ∉ passed ++ missed := by
      intro member
      rcases List.mem_append.mp member with inPassed | inMissed
      · apply absent
        rw [← chosenPassed]
        exact List.mem_filter.mpr ⟨inPassed, meetsPlace⟩
      · exact unmet place inMissed meetsPlace
    have visited : (place :: (passed ++ missed)).count other = 1 := by
      rw [round_between whole never]
      exact count_round _ (bound other met)
    have unvisited : missed.count other = 0 :=
      List.count_eq_zero.mpr fun member => unmet other member (by simpa using met)
    rw [List.count_cons_of_ne (Ne.symm different), List.count_append, unvisited, Nat.add_zero]
      at visited
    rw [← chosenPassed, List.count_filter (by simpa using met)]
    exact visited
  · intro place other met metOther
    rw [List.count_filter (by simpa using met), List.count_filter (by simpa using metOther)]
    exact count_le_count start count (bound place met) (bound other metOther)

end Turns
