import FISim.Tcp.SequenceNumber
import Mathlib.Data.BitVec

/-!
The class template `SequenceNumber`: numbers of any width that are compared by the shorter way
round, with a difference whose type is signed or, for `MpDataSeqNum`, is not.
-/

namespace FISim

/-- The second argument of the template. -/
inductive SignedType
  | signed
  | unsigned
  deriving DecidableEq

def SignedType.positive {w : ℕ} : SignedType → BitVec w → Bool
  | .signed, difference => (0 : BitVec w).slt difference
  | .unsigned, difference => (0 : BitVec w).ult difference

structure SequenceNumber (w : ℕ) where
  value : BitVec w
  deriving DecidableEq

namespace SequenceNumber

variable {w : ℕ}

def maxValue (w : ℕ) : BitVec w := BitVec.allOnes w
def halfMaxValue (w : ℕ) : BitVec w := maxValue w / 2

/-- `operator+`, which is the same for an offset and for another number. -/
def plus (a : SequenceNumber w) (delta : BitVec w) : SequenceNumber w := ⟨a.value + delta⟩

def minus (a b : SequenceNumber w) : BitVec w :=
  if a.value > b.value then
    let diff := a.value - b.value
    if diff < halfMaxValue w then diff else -(maxValue w - a.value + 1 + b.value)
  else
    let diff := b.value - a.value
    if diff < halfMaxValue w then -diff else maxValue w - b.value + 1 + a.value

def greater (a b : SequenceNumber w) : Bool :=
  (a.value > b.value && a.value - b.value ≤ halfMaxValue w) ||
    (b.value > a.value && b.value - a.value > halfMaxValue w)

def less (a b : SequenceNumber w) : Bool := !a.greater b && a ≠ b

/-- How far the first number is ahead of the second. -/
def ahead (a b : SequenceNumber w) : ℕ := (a.value - b.value).toNat

/-- Numbers whose order is not the same in both directions. -/
def HalfApart (a b : SequenceNumber w) : Prop := a.ahead b = 2 ^ (w - 1)

instance (a b : SequenceNumber w) : Decidable (HalfApart a b) := inferInstanceAs (Decidable (_ = _))

/-- What `operator+` and `operator-` have to do with the order. -/
structure Agrees (type : SignedType) (a b : SequenceNumber w) : Prop where
  greater : a.greater b = type.positive (a.minus b)
  back : b.plus (a.minus b) = a
  shifted : ∀ offset, (a.plus offset).greater (b.plus offset) = a.greater b ∧
    (a.plus offset).less (b.plus offset) = a.less b ∧
      (a.plus offset).minus (b.plus offset) = a.minus b

/-- One of the three relations holds, and the difference fits to it. -/
def Consistent (type : SignedType) (a b : SequenceNumber w) : Prop :=
  (a.less b).toNat + (decide (a = b)).toNat + (a.greater b).toNat = 1 ∧
    (¬ HalfApart a b → Agrees type a b)

theorem minus_eq (a b : SequenceNumber w) : a.minus b = a.value - b.value := by
  have zero : maxValue w + 1 = 0 := by
    rw [maxValue, ← BitVec.neg_one_eq_allOnes]
    exact neg_add_cancel (1 : BitVec w)
  rw [minus]
  split
  · dsimp only
    split
    · rfl
    · calc -(maxValue w - a.value + 1 + b.value)
          = a.value - b.value - (maxValue w + 1) := by ring
        _ = a.value - b.value := by rw [zero, sub_zero]
  · dsimp only
    split
    · ring
    · calc maxValue w - b.value + 1 + a.value
          = a.value - b.value + (maxValue w + 1) := by ring
        _ = a.value - b.value := by rw [zero, add_zero]

theorem ahead_cases (a b : SequenceNumber w) :
    (b.value.toNat ≤ a.value.toNat ∧ a.ahead b + b.value.toNat = a.value.toNat) ∨
      (a.value.toNat < b.value.toNat ∧ a.ahead b + b.value.toNat = a.value.toNat + 2 ^ w) := by
  have first := a.value.isLt
  have second := b.value.isLt
  rw [ahead]
  by_cases order : b.value.toNat ≤ a.value.toNat
  · rw [BitVec.toNat_sub_of_le order]
    omega
  · rw [BitVec.toNat_sub, Nat.mod_eq_of_lt (by omega)]
    omega

theorem two_halves {w : ℕ} (wide : 1 < w) : 2 ^ w = 2 * 2 ^ (w - 1) := by
  obtain ⟨w, rfl⟩ := Nat.exists_eq_add_of_le' wide
  exact Nat.pow_succ'

theorem halfMaxValue_toNat {w : ℕ} (wide : 1 < w) :
    (halfMaxValue w).toNat + 1 = 2 ^ (w - 1) := by
  have two : (2 : BitVec w).toNat = 2 := by
    have four : 2 ^ 2 ≤ 2 ^ w := Nat.pow_le_pow_right Nat.two_pos wide
    have fits : 2 < 2 ^ w := by omega
    exact Nat.mod_eq_of_lt fits
  have halves := two_halves wide
  rw [halfMaxValue, maxValue, BitVec.toNat_udiv, BitVec.toNat_allOnes, two]
  have positive := Nat.two_pow_pos (w - 1)
  omega

section Wide

variable (wide : 1 < w)
include wide

theorem greater_iff (a b : SequenceNumber w) :
    a.greater b = true ↔ 0 < a.ahead b ∧ a.ahead b < 2 ^ (w - 1) ∨
      HalfApart a b ∧ a.value.toNat < b.value.toNat := by
  have half := halfMaxValue_toNat wide
  have halves := two_halves wide
  have first := a.value.isLt
  have second := b.value.isLt
  have there := ahead_cases a b
  have back := ahead_cases b a
  simp only [ahead] at there back
  simp only [greater, Bool.or_eq_true, Bool.and_eq_true, decide_eq_true_eq, gt_iff_lt,
    BitVec.lt_def, BitVec.le_def, HalfApart, ahead]
  omega

theorem positive_signed_iff (a b : SequenceNumber w) :
    SignedType.signed.positive (a.minus b) = true ↔ 0 < a.ahead b ∧ a.ahead b < 2 ^ (w - 1) := by
  have halves := two_halves wide
  have bound : a.ahead b < 2 ^ w := (a.value - b.value).isLt
  have sign : SignedType.signed.positive (a.minus b) = decide (0 < (a.minus b).toInt) := by
    change decide ((0#w).toInt < (a.minus b).toInt) = _
    rw [BitVec.toInt_zero]
  rw [sign, decide_eq_true_eq, minus_eq, BitVec.toInt_eq_toNat_cond, ← ahead]
  split
  · omega
  · omega

theorem greater_shifted {a b : SequenceNumber w} (apart : ¬ HalfApart a b) (offset : BitVec w) :
    (a.plus offset).greater (b.plus offset) = a.greater b := by
  have same : (a.plus offset).ahead (b.plus offset) = a.ahead b := by
    rw [ahead, plus, plus, add_sub_add_right_eq_sub, ahead]
  have before := greater_iff wide a b
  have after := greater_iff wide (a.plus offset) (b.plus offset)
  rw [HalfApart, same] at after
  rw [HalfApart] at before apart
  rw [Bool.eq_iff_iff, after, before]
  omega

theorem less_shifted {a b : SequenceNumber w} (apart : ¬ HalfApart a b) (offset : BitVec w) :
    (a.plus offset).less (b.plus offset) = a.less b := by
  have same : a.plus offset = b.plus offset ↔ a = b := by
    cases a
    cases b
    simp [plus]
  simp only [less, greater_shifted wide apart, ne_eq, same]

theorem agrees_of_sign {type : SignedType} {a b : SequenceNumber w} (apart : ¬ HalfApart a b)
    (sign : a.greater b = type.positive (a.minus b)) : Agrees type a b := by
  refine ⟨sign, ?_, fun offset => ⟨?_, ?_, ?_⟩⟩
  · rw [minus_eq]
    exact congrArg SequenceNumber.mk (add_sub_cancel b.value a.value)
  · exact greater_shifted wide apart offset
  · exact less_shifted wide apart offset
  · rw [minus_eq, minus_eq, plus, plus, add_sub_add_right_eq_sub]

end Wide

theorem one_relation (a b : SequenceNumber w) :
    (a.less b).toNat + (decide (a = b)).toNat + (a.greater b).toNat = 1 := by
  by_cases same : a = b
  · subst same
    simp [less, greater]
  · cases greater : a.greater b <;> simp [less, greater, same]

theorem consistent_signed {w : ℕ} (wide : 1 < w) (a b : SequenceNumber w) : Consistent .signed a b := by
  refine ⟨one_relation a b, fun apart => agrees_of_sign wide apart ?_⟩
  rw [Bool.eq_iff_iff, positive_signed_iff wide, greater_iff wide]
  exact or_iff_left fun half => apart half.1

theorem consistent_unsigned_iff {w : ℕ} (wide : 1 < w) (a b : SequenceNumber w) :
    Consistent .unsigned a b ↔ a.ahead b ≤ 2 ^ (w - 1) := by
  have positive : SignedType.unsigned.positive (a.minus b) = true ↔ 0 < a.ahead b := by
    rw [SignedType.positive, minus_eq, ahead]
    exact decide_eq_true_iff
  have half := Nat.two_pow_pos (w - 1)
  constructor
  · rintro ⟨-, agrees⟩
    by_cases apart : HalfApart a b
    · exact Nat.le_of_eq apart
    · have sign := Bool.eq_iff_iff.mp (agrees apart).greater
      rw [positive, greater_iff wide] at sign
      rw [HalfApart] at sign apart
      omega
  · refine fun near => ⟨one_relation a b, fun apart => agrees_of_sign wide apart ?_⟩
    rw [Bool.eq_iff_iff, positive, greater_iff wide]
    rw [HalfApart] at apart ⊢
    omega

/-- `SequenceNumber32` compares and subtracts consistently, and `MpDataSeqNum` where the first
number is not behind the second. -/
theorem consistent_iff (a b : SequenceNumber 32) (c d : SequenceNumber 64) :
    Consistent .signed a b ∧ (Consistent .unsigned c d ↔ c.ahead d ≤ 2 ^ 63) :=
  ⟨consistent_signed (by decide) a b, consistent_unsigned_iff (by decide) c d⟩

/-- 0 is less than 1, but 0 minus 1 is positive. -/
theorem mpDataSeqNum_inconsistent : ¬ Consistent .unsigned (⟨0⟩ : SequenceNumber 64) ⟨1⟩ := by
  rintro ⟨-, agrees⟩
  exact absurd (agrees (by decide)).greater (by decide)

end SequenceNumber

namespace Tcp.SequenceNumber32

end Tcp.SequenceNumber32

end FISim
