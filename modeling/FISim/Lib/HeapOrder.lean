import Mathlib.Logic.Equiv.Basic
import Mathlib.Order.Lattice

/-!
The order of a binary heap that is kept in an array from place 1 on: no place has
a smaller key than the place above it, which is half of it.  A heap is known by
its keys and its last place.
-/

namespace HeapOrder

universe u

variable {Key : Type u} {key : ℕ → Key} {last hole : ℕ}

def exchanged (key : ℕ → Key) (first second : ℕ) : ℕ → Key := key ∘ Equiv.swap first second

@[simp] theorem exchanged_first (key : ℕ → Key) (first second : ℕ) :
    exchanged key first second first = key second := by
  simp [exchanged]

@[simp] theorem exchanged_second (key : ℕ → Key) (first second : ℕ) :
    exchanged key first second second = key first := by
  simp [exchanged]

theorem exchanged_other {first second place : ℕ} (notFirst : place ≠ first)
    (notSecond : place ≠ second) : exchanged key first second place = key place := by
  simp [exchanged, Equiv.swap_apply_of_ne_of_ne notFirst notSecond]

variable [LinearOrder Key]

def Ordered (key : ℕ → Key) (last : ℕ) : Prop :=
  ∀ place, 2 ≤ place → place ≤ last → key (place / 2) ≤ key place

theorem Ordered.root_le (ordered : Ordered key last) {place : ℕ} (inside : 1 ≤ place)
    (bound : place ≤ last) : key 1 ≤ key place := by
  induction place using Nat.strongRecOn with
  | ind place ih =>
      by_cases root : place = 1
      · rw [root]
      · have above := ih (place / 2) (by omega) (by omega) (by omega)
        exact above.trans (ordered place (by omega) bound)

/-- Only the hole may have a smaller key than the place above it. -/
structure Rising (key : ℕ → Key) (last hole : ℕ) : Prop where
  others : ∀ place, 2 ≤ place → place ≤ last → place ≠ hole → key (place / 2) ≤ key place
  below : 2 ≤ hole → ∀ place ≤ last, place / 2 = hole → key (hole / 2) ≤ key place

/-- Only the places right below the hole may have a smaller key than the hole. -/
structure Sinking (key : ℕ → Key) (last hole : ℕ) : Prop where
  others : ∀ place, 2 ≤ place → place ≤ last → place / 2 ≠ hole → key (place / 2) ≤ key place
  below : 2 ≤ hole → ∀ place ≤ last, place / 2 = hole → key (hole / 2) ≤ key place

theorem Ordered.rising {other : ℕ → Key} (ordered : Ordered key last)
    (same : ∀ place ≤ last, other place = key place) : Rising other (last + 1) (last + 1) := by
  constructor
  · intro place inside bound notHole
    rw [same place (by omega), same (place / 2) (by omega)]
    exact ordered place inside (by omega)
  · intro _ place bound half
    omega

theorem Rising.ordered (rising : Rising key last hole)
    (stop : hole ≤ 1 ∨ key (hole / 2) ≤ key hole) : Ordered key last := by
  intro place inside bound
  by_cases isHole : place = hole
  · subst isHole
    rcases stop with root | settled
    · omega
    · exact settled
  · exact rising.others place inside bound isHole

theorem Rising.exchange (rising : Rising key last hole) (inside : 2 ≤ hole) (bound : hole ≤ last)
    (less : key hole < key (hole / 2)) :
    Rising (exchanged key hole (hole / 2)) last (hole / 2) := by
  have top : 2 ≤ hole / 2 → key (hole / 2 / 2) ≤ key (hole / 2) := fun deep =>
    rising.others (hole / 2) deep (by omega) (by omega)
  constructor
  · intro place deep short notHole
    by_cases isHole : place = hole
    · subst isHole
      rw [exchanged_second, exchanged_first]
      exact less.le
    · rw [exchanged_other isHole notHole]
      by_cases underHole : place / 2 = hole
      · rw [underHole, exchanged_first]
        exact rising.below inside place short underHole
      · by_cases sibling : place / 2 = hole / 2
        · rw [sibling, exchanged_second]
          have upper := rising.others place deep short isHole
          rw [sibling] at upper
          exact less.le.trans upper
        · rw [exchanged_other underHole sibling]
          exact rising.others place deep short isHole
  · intro deep place short half
    rw [exchanged_other (by omega) (by omega)]
    by_cases isHole : place = hole
    · subst isHole
      rw [exchanged_first]
      exact top deep
    · rw [exchanged_other isHole (by omega)]
      have upper := rising.others place (by omega) short isHole
      rw [half] at upper
      exact (top deep).trans upper

theorem Sinking.ordered (sinking : Sinking key last hole)
    (stop : ∀ place ≤ last, place / 2 = hole → key hole ≤ key place) : Ordered key last := by
  intro place inside bound
  by_cases underHole : place / 2 = hole
  · rw [underHole]
    exact stop place bound underHole
  · exact sinking.others place inside bound underHole

theorem Sinking.exchange (sinking : Sinking key last hole) {child : ℕ} (positive : 1 ≤ hole)
    (bound : child ≤ last) (half : child / 2 = hole)
    (least : ∀ place ≤ last, place / 2 = hole → key child ≤ key place)
    (le : key child ≤ key hole) : Sinking (exchanged key hole child) last child := by
  constructor
  · intro place deep short notChild
    by_cases isHole : place = hole
    · subst isHole
      rw [exchanged_first, exchanged_other (by omega) (by omega)]
      exact sinking.below deep child bound half
    · by_cases isChild : place = child
      · subst isChild
        rw [half, exchanged_first, exchanged_second]
        exact le
      · rw [exchanged_other isHole isChild]
        by_cases underHole : place / 2 = hole
        · rw [underHole, exchanged_first]
          exact least place short underHole
        · rw [exchanged_other underHole notChild]
          exact sinking.others place deep short underHole
  · intro deep place short under
    rw [half, exchanged_first, exchanged_other (by omega) (by omega)]
    have upper := sinking.others place (by omega) short (by omega)
    rwa [under] at upper

theorem Ordered.sinking {shorter : ℕ} (ordered : Ordered key (shorter + 1))
    (inside : 1 ≤ hole) (bound : hole ≤ shorter + 1)
    (high : 2 ≤ hole → hole ≤ shorter → key (hole / 2) ≤ key (shorter + 1)) :
    Sinking (exchanged key hole (shorter + 1)) shorter hole := by
  constructor
  · intro place deep short notUnder
    rw [exchanged_other notUnder (by omega)]
    by_cases isHole : place = hole
    · subst isHole
      rw [exchanged_first]
      exact high deep short
    · rw [exchanged_other isHole (by omega)]
      exact ordered place deep (by omega)
  · intro deep place short under
    rw [exchanged_other (by omega) (by omega), exchanged_other (by omega) (by omega)]
    have upper := ordered place (by omega) (by omega)
    rw [under] at upper
    exact (ordered hole deep bound).trans upper

end HeapOrder
