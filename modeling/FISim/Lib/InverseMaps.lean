import Mathlib.Logic.Function.Basic
import Mathlib.Data.Option.Basic

/-!
Two tables that are kept as each other's inverses: entries that are put into both
and taken out of both, and what a table with narrower values still says.
-/

namespace InverseMaps

universe u v

variable {α : Type u} {β : Type v} [DecidableEq α] [DecidableEq β]
variable {forward : α → Option β} {backward : β → Option α}

def Inverse (forward : α → Option β) (backward : β → Option α) : Prop :=
  ∀ key value, forward key = some value ↔ backward value = some key

omit [DecidableEq α] [DecidableEq β] in
theorem Inverse.unique (inverse : Inverse forward backward) {key other : α} {value : β}
    (here : forward key = some value) (there : forward other = some value) : key = other :=
  Option.some.inj (((inverse key value).mp here).symm.trans ((inverse other value).mp there))

omit [DecidableEq α] [DecidableEq β] in
theorem Inverse.free (inverse : Inverse forward backward) {value : β}
    (absent : backward value = none) (key : α) : forward key ≠ some value := by
  intro present
  rw [(inverse key value).mp present] at absent
  cases absent

omit [DecidableEq α] [DecidableEq β] in
theorem inverse_empty : Inverse (fun _ : α => (none : Option β)) fun _ => none := by
  intro key value
  constructor <;> rintro ⟨⟩

theorem Inverse.insert (inverse : Inverse forward backward) {key : α} {value : β}
    (unused : forward key = none) (absent : backward value = none) :
    Inverse (Function.update forward key (some value)) (Function.update backward value (some key)) := by
  intro otherKey otherValue
  by_cases sameKey : otherKey = key
  · by_cases sameValue : otherValue = value
    · rw [sameKey, sameValue, Function.update_self, Function.update_self]
      exact ⟨fun _ => rfl, fun _ => rfl⟩
    · rw [sameKey, Function.update_self, Function.update_of_ne sameValue]
      constructor
      · intro same
        exact absurd (Option.some.inj same).symm sameValue
      · intro present
        rw [(inverse key otherValue).mpr present] at unused
        cases unused
  · rw [Function.update_of_ne sameKey]
    by_cases sameValue : otherValue = value
    · rw [sameValue, Function.update_self]
      constructor
      · intro present
        exact absurd present (inverse.free absent otherKey)
      · intro same
        exact absurd (Option.some.inj same).symm sameKey
    · rw [Function.update_of_ne sameValue]
      exact inverse otherKey otherValue

theorem Inverse.erase (inverse : Inverse forward backward) {key : α} {value : β}
    (present : forward key = some value) :
    Inverse (Function.update forward key none) (Function.update backward value none) := by
  have back := (inverse key value).mp present
  intro otherKey otherValue
  by_cases sameKey : otherKey = key
  · rw [sameKey, Function.update_self]
    by_cases sameValue : otherValue = value
    · rw [sameValue, Function.update_self]
      constructor <;> rintro ⟨⟩
    · rw [Function.update_of_ne sameValue]
      constructor
      · rintro ⟨⟩
      · intro other
        have again := (inverse key otherValue).mpr other
        exact absurd (Option.some.inj (again.symm.trans present)) sameValue
  · rw [Function.update_of_ne sameKey]
    by_cases sameValue : otherValue = value
    · rw [sameValue, Function.update_self]
      constructor
      · intro other
        exact absurd (inverse.unique other present) sameKey
      · rintro ⟨⟩
    · rw [Function.update_of_ne sameValue]
      exact inverse otherKey otherValue

end InverseMaps
