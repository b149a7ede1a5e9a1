import Mathlib.Data.List.Basic

/-!
Channels that share one list of messages, in the order in which they were sent.
The first message of a channel leaves the list and the others stay in order.
-/

namespace Channel

universe u v

variable {α : Type u} {β : Type v} {here : α → Bool} {list rest : List α} {first : α}

def takeFirst (here : α → Bool) : List α → Option (α × List α)
  | [] => none
  | item :: rest =>
      if here item then some (item, rest)
      else (takeFirst here rest).map fun taken => (taken.1, item :: taken.2)

theorem takeFirst_cases {item : α} {others : List α}
    (taken : takeFirst here (item :: others) = some (first, rest)) :
    (here item = true ∧ first = item ∧ rest = others) ∨
      (here item = false ∧ ∃ later, takeFirst here others = some (first, later) ∧
        rest = item :: later) := by
  rw [takeFirst] at taken
  split at taken
  · rename_i there
    obtain ⟨rfl, rfl⟩ := Prod.mk.inj (Option.some.inj taken)
    exact .inl ⟨there, rfl, rfl⟩
  · rename_i elsewhere
    obtain ⟨⟨found, later⟩, deeper, made⟩ := Option.map_eq_some_iff.mp taken
    obtain ⟨rfl, rfl⟩ := Prod.mk.inj made
    exact .inr ⟨by simpa using elsewhere, later, deeper, rfl⟩

theorem here_of_takeFirst (taken : takeFirst here list = some (first, rest)) :
    here first = true := by
  induction list generalizing rest with
  | nil => cases taken
  | cons item others ih =>
      rcases takeFirst_cases taken with ⟨there, rfl, -⟩ | ⟨-, later, deeper, -⟩
      · exact there
      · exact ih deeper

theorem perm_takeFirst (taken : takeFirst here list = some (first, rest)) :
    list.Perm (first :: rest) := by
  induction list generalizing rest with
  | nil => cases taken
  | cons item others ih =>
      rcases takeFirst_cases taken with ⟨-, rfl, rfl⟩ | ⟨-, later, deeper, rfl⟩
      · exact List.Perm.refl _
      · exact ((ih deeper).cons item).trans (List.Perm.swap first item later)

theorem countP_takeFirst (taken : takeFirst here list = some (first, rest)) (counted : α → Bool) :
    list.countP counted = rest.countP counted + if counted first then 1 else 0 := by
  rw [(perm_takeFirst taken).countP_eq, List.countP_cons]

/-- What a function reads off the messages of one channel, it reads off in their order. -/
theorem flatMap_takeFirst (taken : takeFirst here list = some (first, rest)) {read : α → List β}
    (silent : ∀ item, here item = false → read item = []) :
    list.flatMap read = read first ++ rest.flatMap read := by
  induction list generalizing rest with
  | nil => cases taken
  | cons item others ih =>
      rcases takeFirst_cases taken with ⟨-, rfl, rfl⟩ | ⟨elsewhere, later, deeper, rfl⟩
      · exact List.flatMap_cons
      · rw [List.flatMap_cons, List.flatMap_cons, silent item elsewhere, ih deeper]
        rfl

theorem flatMap_takeFirst_of_nil (taken : takeFirst here list = some (first, rest))
    {read : α → List β} (nothing : read first = []) : list.flatMap read = rest.flatMap read := by
  induction list generalizing rest with
  | nil => cases taken
  | cons item others ih =>
      rcases takeFirst_cases taken with ⟨-, rfl, rfl⟩ | ⟨-, later, deeper, rfl⟩
      · rw [List.flatMap_cons, nothing]
        rfl
      · rw [List.flatMap_cons, List.flatMap_cons, ih deeper]

theorem takeFirst_head {item : α} {others : List α} (there : here item = true) :
    takeFirst here (item :: others) = some (item, others) := by
  rw [takeFirst, if_pos there]

end Channel
