import Mathlib.Data.List.Basic
import Mathlib.Order.Lattice

/-!
Pieces of a list, each one with the place it is cut from, and the scan of pieces in the
order of their places: it meets no gap exactly if the pieces cover what lies before the
farthest end, and then appending what each piece adds gives the list back.
-/

namespace Pieces

universe u

variable {α : Type u}

/-- The part is what the whole holds from the offset on. -/
structure IsPiece (whole part : List α) (offset : ℕ) : Prop where
  inside : offset + part.length ≤ whole.length
  holds : (whole.drop offset).take part.length = part

theorem isPiece_whole (whole : List α) : IsPiece whole whole 0 := by
  constructor
  · simp
  · simp

theorem IsPiece.trans {whole part inner : List α} {offset within : ℕ}
    (outer : IsPiece whole part offset) (cut : IsPiece part inner within) :
    IsPiece whole inner (offset + within) := by
  have outside := outer.inside
  have inside := cut.inside
  constructor
  · omega
  · rw [← cut.holds]
    conv_rhs => rw [← outer.holds]
    rw [List.drop_take, List.drop_drop, List.take_take, Nat.min_eq_left (by omega)]
    congr 1
    rw [cut.holds]

theorem isPiece_prefix {whole part : List α} (before : part <+: whole) : IsPiece whole part 0 := by
  constructor
  · simpa using before.length_le
  · rw [List.drop_zero, ← List.prefix_iff_eq_take.mp before]

theorem IsPiece.of_prefix {whole longer part : List α} {offset : ℕ}
    (piece : IsPiece whole part offset) (before : whole <+: longer) : IsPiece longer part offset := by
  simpa using ( isPiece_prefix before).trans piece

theorem isPiece_cut {whole : List α} {offset count : ℕ} (inside : offset + count ≤ whole.length) :
    IsPiece whole ((whole.drop offset).take count) offset := by
  have length : ((whole.drop offset).take count).length = count := by
    rw [List.length_take, List.length_drop]
    omega
  constructor
  · rw [length]
    exact inside
  · rw [length]

theorem IsPiece.take_eq {whole part : List α} {offset count : ℕ} (piece : IsPiece whole part offset)
    (fits : count ≤ part.length) : part.take count = (whole.drop offset).take count := by
  conv_lhs => rw [← piece.holds, List.take_take, Nat.min_eq_left fits]

theorem IsPiece.append_take {whole part : List α} {offset count : ℕ}
    (piece : IsPiece whole part offset) (fits : part.length ≤ count) :
    part ++ (whole.drop (offset + part.length)).take (count - part.length) =
      (whole.drop offset).take count := by
  calc part ++ (whole.drop (offset + part.length)).take (count - part.length)
      = (whole.drop offset).take part.length ++
          ((whole.drop offset).drop part.length).take (count - part.length) := by
        rw [piece.holds, List.drop_drop]
    _ = (whole.drop offset).take count := by rw [← List.take_add, Nat.add_sub_cancel' fits]

theorem IsPiece.extends {whole part : List α} {offset reach : ℕ} (piece : IsPiece whole part offset)
    (touches : offset ≤ reach) :
    whole.take reach ++ part.drop (reach - offset) =
      whole.take (max reach (offset + part.length)) := by
  have inside := piece.inside
  have rest : part.drop (reach - offset) =
      (whole.drop reach).take (offset + part.length - reach) := by
    conv_lhs => rw [← piece.holds]
    rw [List.drop_take, List.drop_drop]
    congr 1
    · omega
    · congr 1
      omega
  rw [rest, ← List.take_add]
  congr 1
  omega

abbrev Span (α : Type u) := List α × ℕ

def finish (span : Span α) : ℕ := span.2 + span.1.length

def Contains (span : Span α) (place : ℕ) : Prop := span.2 ≤ place ∧ place < finish span

instance (span : Span α) (place : ℕ) : Decidable (Contains span place) :=
  inferInstanceAs (Decidable (_ ∧ _))

def Gapless : ℕ → List (Span α) → Prop
  | _, [] => True
  | reach, span :: rest => span.2 ≤ reach ∧ Gapless (max reach (finish span)) rest

/-- The farthest end of the spans and of what was reached before them. -/
def reached (reach : ℕ) (spans : List (Span α)) : ℕ :=
  spans.foldl (fun last span => max last (finish span)) reach

@[simp] theorem reached_nil (reach : ℕ) : reached reach ([] : List (Span α)) = reach := rfl

@[simp] theorem reached_cons (reach : ℕ) (span : Span α) (rest : List (Span α)) :
    reached reach (span :: rest) = reached (max reach (finish span)) rest := rfl

theorem le_reached (reach : ℕ) (spans : List (Span α)) : reach ≤ reached reach spans := by
  induction spans generalizing reach with
  | nil => exact Nat.le_refl reach
  | cons span rest ih => exact Nat.le_trans (Nat.le_max_left _ _) (ih _)

theorem finish_le_reached {reach : ℕ} {spans : List (Span α)} {span : Span α}
    (member : span ∈ spans) : finish span ≤ reached reach spans := by
  induction spans generalizing reach with
  | nil => simp at member
  | cons first rest ih =>
      rcases List.mem_cons.mp member with rfl | later
      · exact Nat.le_trans (Nat.le_max_right _ _) (le_reached _ _)
      · exact ih later

theorem reached_le {reach bound : ℕ} {spans : List (Span α)} (below : reach ≤ bound)
    (inside : ∀ span ∈ spans, finish span ≤ bound) : reached reach spans ≤ bound := by
  induction spans generalizing reach with
  | nil => exact below
  | cons span rest ih =>
      apply ih
      · exact Nat.max_le.mpr ⟨below, inside span (by simp)⟩
      · exact fun other member => inside other (by simp [member])

theorem gapless_iff_covers {reach : ℕ} {spans : List (Span α)}
    (sorted : spans.Pairwise fun first second => first.2 ≤ second.2) :
    Gapless reach spans ↔
      ∀ place, reach ≤ place → place < reached reach spans →
        ∃ span ∈ spans, Contains span place := by
  induction spans generalizing reach with
  | nil =>
      simp only [Gapless, reached_nil, true_iff]
      intro place lower upper
      omega
  | cons span rest ih =>
      rw [List.pairwise_cons] at sorted
      obtain ⟨first, sorted⟩ := sorted
      rw [Gapless, ih sorted]
      constructor
      · rintro ⟨touches, covers⟩ place lower upper
        by_cases early : place < finish span
        · exact ⟨span, by simp, by omega, early⟩
        · obtain ⟨other, member, contains⟩ := covers place (by omega) upper
          exact ⟨other, by simp [member], contains⟩
      · intro covers
        constructor
        · by_contra gap
          have far : finish span ≤ reached reach (span :: rest) := finish_le_reached (by simp)
          obtain ⟨other, member, contains⟩ := covers reach (by omega) (by
            rw [finish] at far
            omega)
          have lower := contains.1
          rcases List.mem_cons.mp member with rfl | later
          · omega
          · have := first other later
            omega
        · intro place lower upper
          obtain ⟨other, member, contains⟩ := covers place (by omega) upper
          rcases List.mem_cons.mp member with rfl | later
          · have := contains.2
            omega
          · exact ⟨other, later, contains⟩

/-- Appending what each span adds. -/
def assemble (start : List α) (spans : List (Span α)) : List α :=
  spans.foldl (fun whole span => whole ++ span.1.drop (whole.length - span.2)) start

theorem assemble_eq {whole : List α} {reach : ℕ} {spans : List (Span α)}
    (pieces : ∀ span ∈ spans, IsPiece whole span.1 span.2) (within : reach ≤ whole.length)
    (gapless : Gapless reach spans) :
    assemble (whole.take reach) spans = whole.take (reached reach spans) := by
  induction spans generalizing reach with
  | nil => rfl
  | cons span rest ih =>
      obtain ⟨touches, gapless⟩ := gapless
      have piece := pieces span (by simp)
      have inside := piece.inside
      have length : (whole.take reach).length = reach := by
        rw [List.length_take]
        omega
      have first : whole.take reach ++ span.1.drop ((whole.take reach).length - span.2) =
          whole.take (max reach (finish span)) := by
        rw [length]
        exact piece.extends touches
      have next := ih (fun other member => pieces other (by simp [member]))
        (Nat.max_le.mpr ⟨within, inside⟩) gapless
      rw [assemble, List.foldl_cons, first]
      exact next

end Pieces
