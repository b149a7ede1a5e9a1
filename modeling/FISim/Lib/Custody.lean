import Mathlib.Data.List.Perm.Basic

/-!
What was handed over is delivered in the order in which it was handed over, waits, or is
gone, and nothing is in two of these places.
-/

universe u

structure Custody {Item : Type u} (handed delivered waiting gone : List Item) : Prop where
  accounted : handed.Perm (delivered ++ waiting ++ gone)
  ordered : (delivered ++ waiting).Sublist handed

namespace Custody

variable {Item : Type u} {handed delivered waiting gone : List Item} {item : Item}

theorem nil : Custody ([] : List Item) [] [] [] := ⟨List.Perm.refl _, List.Sublist.refl _⟩

theorem gone_perm (custody : Custody handed delivered waiting gone) {other : List Item}
    (perm : gone.Perm other) : Custody handed delivered waiting other :=
  ⟨custody.accounted.trans (perm.append_left _), custody.ordered⟩

theorem wait (custody : Custody handed delivered waiting gone) (item : Item) :
    Custody (handed ++ [item]) delivered (waiting ++ [item]) gone := by
  constructor
  · refine (custody.accounted.append_right [item]).trans ?_
    rw [← List.append_assoc, List.append_assoc (delivered ++ waiting), List.append_assoc _ [item]]
    exact (List.perm_append_comm).append_left _
  · rw [← List.append_assoc]
    exact custody.ordered.append_right [item]

theorem refuse (custody : Custody handed delivered waiting gone) (item : Item) :
    Custody (handed ++ [item]) delivered waiting (gone ++ [item]) := by
  constructor
  · rw [← List.append_assoc]
    exact custody.accounted.append_right [item]
  · exact custody.ordered.trans (List.sublist_append_left _ _)

theorem deliver (custody : Custody handed delivered (item :: waiting) gone) :
    Custody handed (delivered ++ [item]) waiting gone := by
  constructor
  · simpa only [List.append_assoc, List.singleton_append] using custody.accounted
  · simpa only [List.append_assoc, List.singleton_append] using custody.ordered

theorem loseAll (custody : Custody handed delivered waiting gone) :
    Custody handed delivered [] (gone ++ waiting) := by
  constructor
  · refine custody.accounted.trans ?_
    rw [List.append_nil, List.append_assoc]
    exact (List.perm_append_comm).append_left _
  · rw [List.append_nil]
    exact (List.sublist_append_left _ _).trans custody.ordered

theorem deliverAll (custody : Custody handed delivered waiting gone) :
    Custody handed (delivered ++ waiting) [] gone := by
  constructor
  · rw [List.append_nil]
    exact custody.accounted
  · rw [List.append_nil]
    exact custody.ordered

end Custody
