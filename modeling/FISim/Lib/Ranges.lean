import Mathlib.Data.List.Basic
import Mathlib.Order.Lattice

/-!
Lists of ranges with both of their ends, one behind the other, and the set of places that they
cover together.
-/

namespace Ranges

universe u

structure Range (α : Type u) where
  low : α
  high : α
  deriving DecidableEq

variable {α : Type u} [LinearOrder α]

def Range.Contains (range : Range α) (place : α) : Prop :=
  range.low ≤ place ∧ place ≤ range.high

instance (range : Range α) (place : α) : Decidable (range.Contains place) :=
  inferInstanceAs (Decidable (_ ∧ _))

def Covers (ranges : List (Range α)) (place : α) : Prop := ∃ range ∈ ranges, range.Contains place

@[simp] theorem covers_nil (place : α) : ¬ Covers [] place := by
  rintro ⟨range, member, -⟩
  cases member

@[simp] theorem covers_cons (range : Range α) (rest : List (Range α)) (place : α) :
    Covers (range :: rest) place ↔ range.Contains place ∨ Covers rest place := by
  simp [Covers]

/-- No range is empty, and each one ends before the next one begins. -/
structure Ordered (ranges : List (Range α)) : Prop where
  nonempty : ∀ range ∈ ranges, range.low ≤ range.high
  sorted : ranges.Pairwise fun before after => before.high < after.low

theorem ordered_nil : Ordered ([] : List (Range α)) :=
  ⟨fun _ member => absurd member List.not_mem_nil, List.Pairwise.nil⟩

theorem ordered_cons_iff {range : Range α} {rest : List (Range α)} :
    Ordered (range :: rest) ↔
      range.low ≤ range.high ∧ Ordered rest ∧ ∀ place, Covers rest place → range.high < place := by
  constructor
  · intro ordered
    obtain ⟨first, sorted⟩ := List.pairwise_cons.mp ordered.sorted
    refine ⟨ordered.nonempty range List.mem_cons_self, ⟨fun other member =>
      ordered.nonempty other (List.mem_cons_of_mem range member), sorted⟩, ?_⟩
    rintro place ⟨other, member, contains⟩
    exact (first other member).trans_le contains.1
  · rintro ⟨some_place, later, before⟩
    refine ⟨?_, List.pairwise_cons.mpr ⟨?_, later.sorted⟩⟩
    · intro other member
      rcases List.mem_cons.mp member with rfl | behind
      · exact some_place
      · exact later.nonempty other behind
    · intro other member
      exact before other.low ⟨other, member, le_refl _, later.nonempty other member⟩

theorem Ordered.low_of_least {first : Range α} {rest : List (Range α)}
    (ordered : Ordered (first :: rest)) {place : α} (covered : Covers (first :: rest) place)
    (least : ∀ other, Covers (first :: rest) other → place ≤ other) : first.low = place := by
  obtain ⟨some_place, -, behind⟩ := ordered_cons_iff.mp ordered
  have up : place ≤ first.low :=
    least first.low ((covers_cons _ _ _).mpr (Or.inl ⟨le_refl _, some_place⟩))
  rcases (covers_cons _ _ _).mp covered with here | later
  · exact le_antisymm here.1 up
  · exact absurd (up.trans some_place) (not_le.mpr (behind place later))

theorem Ordered.eq_of_contains {ranges : List (Range α)} (ordered : Ordered ranges)
    {first second : Range α} (one : first ∈ ranges) (two : second ∈ ranges) {place : α}
    (inFirst : first.Contains place) (inSecond : second.Contains place) : first = second := by
  induction ranges with
  | nil => cases one
  | cons range rest ih =>
      obtain ⟨-, later, before⟩ := ordered_cons_iff.mp ordered
      rcases List.mem_cons.mp one with rfl | firstBehind
      · rcases List.mem_cons.mp two with rfl | secondBehind
        · rfl
        · exact absurd inFirst.2 (not_le.mpr (before place ⟨second, secondBehind, inSecond⟩))
      · rcases List.mem_cons.mp two with rfl | secondBehind
        · exact absurd inSecond.2 (not_le.mpr (before place ⟨first, firstBehind, inFirst⟩))
        · exact ih later firstBehind secondBehind

end Ranges
