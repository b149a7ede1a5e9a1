import Mathlib.Data.List.Basic

/-!
Runs of cells in a memory that has a value everywhere: reading a run off as a
list, writing a list over a run, and writing over a part of a list.
-/

namespace Cells

universe u

variable {α : Type u} {cells : ℕ → α} {index count : ℕ} {values : List α}

def slice (cells : ℕ → α) (index count : ℕ) : List α :=
  (List.range count).map fun offset => cells (index + offset)

def patch (cells : ℕ → α) (index : ℕ) (values : List α) : ℕ → α := fun cell =>
  if index ≤ cell then (values[cell - index]?).getD (cells cell) else cells cell

@[simp] theorem slice_length : (slice cells index count).length = count := by simp [slice]

theorem slice_getElem? {offset : ℕ} (inside : offset < count) :
    (slice cells index count)[offset]? = some (cells (index + offset)) := by
  simp [slice, List.getElem?_range inside]

theorem patch_inside {offset : ℕ} {value : α} (written : values[offset]? = some value) :
    patch cells index values (index + offset) = value := by
  unfold patch
  rw [if_pos (Nat.le_add_right index offset), Nat.add_sub_cancel_left, written]
  rfl

theorem patch_outside {cell : ℕ} (outside : cell < index ∨ index + values.length ≤ cell) :
    patch cells index values cell = cells cell := by
  unfold patch
  split
  · rw [List.getElem?_eq_none (by omega)]
    rfl
  · rfl

@[simp] theorem patch_nil : patch cells index [] = cells := by
  funext cell
  exact patch_outside (by simp only [List.length_nil]; omega)

theorem patch_append {more : List α} :
    patch (patch cells index values) (index + values.length) more =
      patch cells index (values ++ more) := by
  funext cell
  by_cases before : cell < index
  · rw [patch_outside (.inl (by omega)), patch_outside (.inl before), patch_outside (.inl before)]
  · obtain ⟨offset, rfl⟩ : ∃ offset, cell = index + offset := ⟨cell - index, by omega⟩
    by_cases first : offset < values.length
    · rw [patch_outside (.inl (by omega)), patch_inside (List.getElem?_eq_getElem first)]
      refine (patch_inside ?_).symm
      rw [List.getElem?_append_left first, List.getElem?_eq_getElem first]
    · by_cases second : offset < values.length + more.length
      · obtain ⟨rest, rfl⟩ : ∃ rest, offset = values.length + rest :=
          ⟨offset - values.length, by omega⟩
        have inside : rest < more.length := by omega
        rw [← Nat.add_assoc, patch_inside (List.getElem?_eq_getElem inside), Nat.add_assoc]
        refine (patch_inside ?_).symm
        rw [List.getElem?_append_right (by omega), Nat.add_sub_cancel_left,
          List.getElem?_eq_getElem inside]
      · rw [patch_outside (.inr (by omega)), patch_outside (.inr (by omega)),
          patch_outside (.inr (by rw [List.length_append]; omega))]

theorem slice_congr {cells' : ℕ → α}
    (same : ∀ offset, offset < count → cells' (index + offset) = cells (index + offset)) :
    slice cells' index count = slice cells index count :=
  List.map_congr_left fun offset member => same offset (List.mem_range.mp member)

theorem slice_within {cells' : ℕ → α} (same : slice cells' index count = slice cells index count)
    (inner size : ℕ) (inside : inner + size ≤ count) :
    slice cells' (index + inner) size = slice cells (index + inner) size := by
  apply slice_congr
  intro offset within
  have here := congrArg (fun list => list[inner + offset]?) same
  rw [slice_getElem? (by omega), slice_getElem? (by omega)] at here
  rw [Nat.add_assoc]
  exact Option.some.inj here

theorem slice_add (first second : ℕ) : slice cells index (first + second) =
    slice cells index first ++ slice cells (index + first) second := by
  simp only [slice, List.range_add, List.map_append, List.map_map, Nat.add_assoc]
  rfl

@[simp] theorem patch_slice : patch cells index (slice cells index count) = cells := by
  funext cell
  by_cases inside : index ≤ cell ∧ cell < index + count
  · obtain ⟨offset, rfl⟩ : ∃ offset, cell = index + offset := ⟨cell - index, by omega⟩
    exact patch_inside (slice_getElem? (by omega))
  · exact patch_outside (by rw [slice_length]; omega)

@[simp] theorem slice_patch : slice (patch cells index values) index values.length = values := by
  apply List.ext_getElem?
  intro offset
  by_cases inside : offset < values.length
  · rw [slice_getElem? inside, patch_inside (List.getElem?_eq_getElem inside),
      List.getElem?_eq_getElem inside]
  · rw [List.getElem?_eq_none (by simpa using inside), List.getElem?_eq_none (by omega)]

def overwrite (list : List α) (index : ℕ) (values : List α) : List α :=
  list.take index ++ values ++ list.drop (index + values.length)

theorem overwrite_length {list : List α} (inside : index + values.length ≤ list.length) :
    (overwrite list index values).length = list.length := by
  simp only [overwrite, List.length_append, List.length_take, List.length_drop]
  omega

theorem overwrite_getElem? {list : List α} (inside : index + values.length ≤ list.length)
    (cell : ℕ) : (overwrite list index values)[cell]? =
      if index ≤ cell ∧ cell < index + values.length then values[cell - index]? else list[cell]? := by
  unfold overwrite
  by_cases before : cell < index
  · rw [if_neg (by omega), List.append_assoc, List.getElem?_append_left (by simp; omega),
      List.getElem?_take_of_lt before]
  · by_cases within : cell < index + values.length
    · rw [if_pos (by omega), List.append_assoc,
        List.getElem?_append_right (by simp; omega),
        List.getElem?_append_left (by simp; omega), List.length_take, Nat.min_eq_left (by omega)]
    · rw [if_neg (by omega), List.getElem?_append_right (by simp; omega), List.getElem?_drop]
      congr 1
      simp only [List.length_append, List.length_take]
      omega

theorem overwrite_left {first second : List α} (same : values.length = first.length) :
    overwrite (first ++ second) 0 values = values ++ second := by
  simp [overwrite, same]

theorem overwrite_right {first second : List α} (same : values.length = second.length) :
    overwrite (first ++ second) first.length values = first ++ values := by
  simp [overwrite, same]

end Cells
