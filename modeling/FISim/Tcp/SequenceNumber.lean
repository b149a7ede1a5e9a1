import Mathlib.Data.UInt
import Mathlib.Tactic.Ring

/-!
`SequenceNumber32`: numbers modulo 2^32 that are compared by the shorter way round.
-/

namespace FISim.Tcp

open scoped UInt32.CommRing

structure SequenceNumber32 where
  value : UInt32
  deriving DecidableEq

namespace SequenceNumber32

def maxValue : UInt32 := 0xffffffff
def halfMaxValue : UInt32 := maxValue / 2

def plus (seq : SequenceNumber32) (value : UInt32) : SequenceNumber32 := ⟨seq.value + value⟩

def next (seq : SequenceNumber32) : SequenceNumber32 := ⟨seq.value + 1⟩

/-- `operator-`, the way from the second to the first. -/
def minus (seq other : SequenceNumber32) : Int32 :=
  if seq.value > other.value then
    let diff := seq.value - other.value
    if diff < halfMaxValue then diff.toInt32
    else -(maxValue - seq.value + 1 + other.value).toInt32
  else
    let diff := other.value - seq.value
    if diff < halfMaxValue then -diff.toInt32
    else (maxValue - other.value + 1 + seq.value).toInt32

def greater (seq other : SequenceNumber32) : Bool :=
  (seq.value > other.value && seq.value - other.value ≤ halfMaxValue) ||
    (other.value > seq.value && other.value - seq.value > halfMaxValue)

def lessEqual (seq other : SequenceNumber32) : Bool := !seq.greater other

def greaterEqual (seq other : SequenceNumber32) : Bool := seq.greater other || seq = other

def less (seq other : SequenceNumber32) : Bool := !seq.greater other && seq ≠ other

theorem minus_toUInt32 (seq other : SequenceNumber32) :
    (seq.minus other).toUInt32 = seq.value - other.value := by
  have zero : maxValue + 1 = 0 := rfl
  rw [minus]
  split
  · dsimp only
    split
    · rfl
    · rw [Int32.toUInt32_neg, UInt32.toUInt32_toInt32]
      calc -(maxValue - seq.value + 1 + other.value)
          = seq.value - other.value - (maxValue + 1) := by ring
        _ = seq.value - other.value := by rw [zero, sub_zero]
  · dsimp only
    split
    · rw [Int32.toUInt32_neg, UInt32.toUInt32_toInt32]
      ring
    · rw [UInt32.toUInt32_toInt32]
      calc maxValue - other.value + 1 + seq.value
          = seq.value - other.value + (maxValue + 1) := by ring
        _ = seq.value - other.value := by rw [zero, add_zero]

theorem distance_of_greater {seq other : SequenceNumber32} (ahead : seq.greater other = true) :
    0 < (seq.value - other.value).toNat ∧ (seq.value - other.value).toNat ≤ 2 ^ 31 := by
  have half : halfMaxValue.toNat = 2 ^ 31 - 1 := by decide
  have first := seq.value.toNat_lt
  have second := other.value.toNat_lt
  simp only [greater, Bool.or_eq_true, Bool.and_eq_true, decide_eq_true_eq, gt_iff_lt,
    UInt32.lt_iff_toNat_lt, UInt32.le_iff_toNat_le, UInt32.toNat_sub, half] at ahead ⊢
  omega

theorem distance_of_not_greater {seq other : SequenceNumber32} (behind : seq.greater other = false) :
    seq = other ∨
      0 < (other.value - seq.value).toNat ∧ (other.value - seq.value).toNat ≤ 2 ^ 31 := by
  have half : halfMaxValue.toNat = 2 ^ 31 - 1 := by decide
  have first := seq.value.toNat_lt
  have second := other.value.toNat_lt
  by_cases same : seq.value.toNat = other.value.toNat
  · left
    cases seq
    cases other
    exact congrArg _ (UInt32.toNat_inj.mp same)
  · right
    rw [← Bool.not_eq_true] at behind
    simp only [greater, Bool.or_eq_true, Bool.and_eq_true, decide_eq_true_eq, gt_iff_lt,
      UInt32.lt_iff_toNat_lt, UInt32.le_iff_toNat_le, UInt32.toNat_sub, half] at behind ⊢
    omega

theorem plus_plus (seq : SequenceNumber32) (first second : UInt32) :
    (seq.plus first).plus second = seq.plus (first + second) := by
  rw [plus, plus, plus, UInt32.add_assoc]

theorem plus_value_sub (seq : SequenceNumber32) (first second : UInt32) :
    (seq.plus first).value - (seq.plus second).value = first - second :=
  add_sub_add_left_eq_sub first second seq.value

/-- The number of the byte at a place of a stream whose first byte has the number `start`. -/
def ofPlace (start : SequenceNumber32) (place : ℕ) : SequenceNumber32 :=
  ⟨start.value + UInt32.ofNat place⟩

section Places

variable (start : SequenceNumber32)

theorem ofPlace_toNat (place : ℕ) :
    (start.ofPlace place).value.toNat = (start.value.toNat + place) % 2 ^ 32 := by
  rw [ofPlace, UInt32.toNat_add, UInt32.toNat_ofNat', Nat.add_mod_mod]

@[simp] theorem ofPlace_zero : start.ofPlace 0 = start := by
  cases start
  simp [ofPlace]

theorem ofPlace_plus (place : ℕ) (value : UInt32) :
    (start.ofPlace place).plus value = start.ofPlace (place + value.toNat) := by
  rw [ofPlace, ofPlace, plus, UInt32.ofNat_add, UInt32.ofNat_toNat, UInt32.add_assoc]

theorem ofPlace_next (place : ℕ) : (start.ofPlace place).next = start.ofPlace (place + 1) := by
  rw [ofPlace, ofPlace, next, UInt32.ofNat_add, UInt32.add_assoc]
  rfl

theorem ofPlace_minus {place other : ℕ} (order : other ≤ place) (near : place < other + 2 ^ 32) :
    ((start.ofPlace place).minus (start.ofPlace other)).toUInt32.toNat = place - other := by
  rw [minus_toUInt32]
  have first := start.ofPlace_toNat place
  have second := start.ofPlace_toNat other
  rw [UInt32.toNat_sub, first, second]
  omega

theorem ofPlace_inj {place other : ℕ} (above : place < other + 2 ^ 32) (below : other < place + 2 ^ 32) :
    start.ofPlace place = start.ofPlace other ↔ place = other := by
  constructor
  · intro same
    have spelled := congrArg (fun seq => seq.value.toNat) same
    simp only [ofPlace_toNat] at spelled
    omega
  · rintro rfl
    rfl

theorem ofPlace_greater {place other : ℕ} (above : place < other + 2 ^ 31)
    (below : other < place + 2 ^ 31) :
    (start.ofPlace place).greater (start.ofPlace other) = true ↔ other < place := by
  have first := start.ofPlace_toNat place
  have second := start.ofPlace_toNat other
  have half : halfMaxValue.toNat = 2 ^ 31 - 1 := rfl
  simp only [greater, Bool.or_eq_true, Bool.and_eq_true, decide_eq_true_eq, gt_iff_lt,
    UInt32.lt_iff_toNat_lt, UInt32.le_iff_toNat_le, UInt32.toNat_sub, first, second, half]
  omega

theorem ofPlace_lessEqual {place other : ℕ} (above : place < other + 2 ^ 31)
    (below : other < place + 2 ^ 31) :
    (start.ofPlace place).lessEqual (start.ofPlace other) = true ↔ place ≤ other := by
  rw [lessEqual, Bool.not_eq_true', ← Bool.not_eq_true, start.ofPlace_greater above below]
  omega

theorem ofPlace_greaterEqual {place other : ℕ} (above : place < other + 2 ^ 31)
    (below : other < place + 2 ^ 31) :
    (start.ofPlace place).greaterEqual (start.ofPlace other) = true ↔ other ≤ place := by
  rw [greaterEqual, Bool.or_eq_true, decide_eq_true_eq, start.ofPlace_greater above below,
    start.ofPlace_inj (by omega) (by omega)]
  omega

theorem ofPlace_less {place other : ℕ} (above : place < other + 2 ^ 31)
    (below : other < place + 2 ^ 31) :
    (start.ofPlace place).less (start.ofPlace other) = true ↔ place < other := by
  rw [less, Bool.and_eq_true, Bool.not_eq_true', ← Bool.not_eq_true, start.ofPlace_greater above below,
    decide_eq_true_eq, ne_eq, start.ofPlace_inj (by omega) (by omega)]
  omega

end Places

end SequenceNumber32

end FISim.Tcp
