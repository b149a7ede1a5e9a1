import Mathlib.Data.Int.DivMod
import Mathlib.Tactic.Ring

/-!
`int64x64_t` on native 128-bit integers: numbers with 64 bits before the point and 64 behind it, and
how they are multiplied.
-/

namespace FISim.FixedPoint

structure Int64x64 where
  -- `int128_t`
  v : BitVec 128
  deriving DecidableEq

namespace Int64x64

def hpMaskLo : BitVec 64 := 0xffffffffffffffff

/-- Declared as `uint64_t`, like the mask that it is the complement of. -/
def hpMaskHi : BitVec 64 := ~~~hpMaskLo

/-- `output_sign`, with the magnitudes.  The least number has no negation: it stays as it is, which
is its magnitude once it is read without a sign. -/
def outputSign (sa sb : BitVec 128) : Bool × BitVec 128 × BitVec 128 :=
  let negA := sa.slt 0
  let negB := sb.slt 0
  (negA != negB, if negA then -sa else sa, if negB then -sb else sb)

def umul (a b : BitVec 128) : Option (BitVec 128) :=
  let maskLo := hpMaskLo.setWidth 128
  let aL := a &&& maskLo
  let bL := b &&& maskLo
  let aH := (a >>> 64) &&& maskLo
  let bH := (b >>> 64) &&& maskLo
  let loPart := aL * bL
  let midPart := aL * bH + aH * bL
  let hiPart := aH * bH
  -- `NS_ABORT_MSG_IF`
  if hiPart &&& hpMaskHi.setWidth 128 ≠ 0 then none
  else
    let result := (loPart >>> 64) + (midPart &&& maskLo)
    let res1 := (midPart >>> 64) + (hiPart &&& maskLo)
    some (result + (res1 <<< 64))

def mul (this o : Int64x64) : Option Int64x64 := do
  let (negative, a, b) := outputSign this.v o.v
  let result ← umul a b
  return ⟨if negative then -result else result⟩

/-- A product of two numbers is refused, or cut off behind the 64th digit of its fraction. -/
def MulExact (this o : Int64x64) : Prop :=
  this.mul o = none ∨
    ∃ product, this.mul o = some product ∧
      product.v.toInt = (this.v.toInt * o.v.toInt).tdiv (2 ^ 64)

/-- The product of the magnitudes leaves room for the sign, or for the least number. -/
def ProductFits (this o : Int64x64) : Prop :=
  this.v.toInt.natAbs * o.v.toInt.natAbs <
    2 ^ 191 + if this.v.slt 0 = o.v.slt 0 then 0 else 2 ^ 64

instance (this o : Int64x64) : Decidable (ProductFits this o) :=
  inferInstanceAs (Decidable (_ < _))

/-- The mask is zero, so that nothing is an overflow to the test. -/
theorem hpMaskHi_eq : hpMaskHi = 0 := rfl

theorem maskLo_toNat (a : BitVec 128) :
    (a &&& hpMaskLo.setWidth 128).toNat = a.toNat % 2 ^ 64 := by
  rw [BitVec.toNat_and]
  exact Nat.and_two_pow_sub_one_eq_mod a.toNat 64

theorem high_toNat {a : BitVec 128} : ((a >>> 64) &&& hpMaskLo.setWidth 128).toNat = a.toNat / 2 ^ 64 := by
  have bound := a.isLt
  rw [maskLo_toNat, BitVec.toNat_ushiftRight, Nat.shiftRight_eq_div_pow]
  omega

theorem product_of_halves {base : ℕ} (positive : 0 < base) (a b : ℕ) :
    a * b / base =
      a / base * (b / base) * base + (a % base * (b / base) + a / base * (b % base)) +
        a % base * (b % base) / base := by
  have whole : a * b = a % base * (b % base) + base *
      (a / base * (b / base) * base + (a % base * (b / base) + a / base * (b % base))) := by
    calc a * b
        = (a % base + base * (a / base)) * (b % base + base * (b / base)) := by
          rw [Nat.mod_add_div, Nat.mod_add_div]
      _ = _ := by ring
  rw [whole, Nat.add_mul_div_left _ _ positive, Nat.add_comm]

theorem mul_toNat_of_lt {a b : BitVec 128} (fits : a.toNat * b.toNat < 2 ^ 128) :
    (a * b).toNat = a.toNat * b.toNat := by
  rw [BitVec.toNat_mul, Nat.mod_eq_of_lt fits]

theorem recombine {aL aH bL bH : BitVec 128} (lowA : aL.toNat < 2 ^ 64) (highA : aH.toNat ≤ 2 ^ 63)
    (lowB : bL.toNat < 2 ^ 64) (highB : bH.toNat ≤ 2 ^ 63) :
    (((aL * bL) >>> 64) + ((aL * bH + aH * bL) &&& hpMaskLo.setWidth 128) +
      ((((aL * bH + aH * bL) >>> 64) + ((aH * bH) &&& hpMaskLo.setWidth 128)) <<< 64)).toNat =
      (aH.toNat * bH.toNat * 2 ^ 64 + (aL.toNat * bH.toNat + aH.toNat * bL.toNat) +
        aL.toNat * bL.toNat / 2 ^ 64) % 2 ^ 128 := by
  have low := Nat.mul_lt_mul'' lowA lowB
  have firstMid := Nat.mul_le_mul (Nat.le_sub_one_of_lt lowA) highB
  have secondMid := Nat.mul_le_mul highA (Nat.le_sub_one_of_lt lowB)
  have high := Nat.mul_le_mul highA highB
  have loPart := mul_toNat_of_lt (a := aL) (b := bL) low
  have hiPart := mul_toNat_of_lt (a := aH) (b := bH) (by omega)
  have midPart : (aL * bH + aH * bL).toNat = aL.toNat * bH.toNat + aH.toNat * bL.toNat := by
    rw [BitVec.toNat_add, mul_toNat_of_lt (a := aL) (by omega), mul_toNat_of_lt (by omega),
      Nat.mod_eq_of_lt (by omega)]
  simp only [BitVec.toNat_add (_ >>> _), BitVec.toNat_add (_ + _), BitVec.toNat_shiftLeft,
    BitVec.toNat_ushiftRight, maskLo_toNat, Nat.shiftRight_eq_div_pow, Nat.shiftLeft_eq, loPart,
    midPart, hiPart]
  omega

theorem umul_eq {a b : BitVec 128} (first : a.toNat ≤ 2 ^ 127) (second : b.toNat ≤ 2 ^ 127) :
    umul a b = some (BitVec.ofNat 128 (a.toNat * b.toNat / 2 ^ 64)) := by
  have passes : ∀ hiPart : BitVec 128, ¬ hiPart &&& hpMaskHi.setWidth 128 ≠ 0 := by
    intro hiPart
    simp [hpMaskHi_eq]
  rw [umul]
  simp only [if_neg (passes _), Option.some.injEq]
  apply BitVec.eq_of_toNat_eq
  rw [BitVec.toNat_ofNat, product_of_halves (by decide) a.toNat b.toNat, recombine, high_toNat,
    high_toNat, maskLo_toNat, maskLo_toNat]
  · rw [maskLo_toNat]
    exact Nat.mod_lt _ (by decide)
  · rw [high_toNat]
    omega
  · rw [maskLo_toNat]
    exact Nat.mod_lt _ (by decide)
  · rw [high_toNat]
    omega

/-! Signs and magnitudes. -/

def signed (negative : Bool) (magnitude : ℕ) : ℤ := if negative then -magnitude else magnitude

theorem signed_natAbs (x : ℤ) : signed (x < 0) x.natAbs = x := by
  by_cases negative : x < 0
  · simp only [signed, negative, decide_true, if_true]
    omega
  · simp only [signed, negative, decide_false, Bool.false_eq_true, if_false]
    omega

theorem signed_mul (s t : Bool) (a b : ℕ) : signed s a * signed t b = signed (s != t) (a * b) := by
  cases s <;> cases t <;> simp [signed]

theorem signed_tdiv (s t : Bool) (a b : ℕ) :
    (signed s a).tdiv (signed t b) = signed (s != t) (a / b) := by
  cases s <;> cases t <;> simp [signed, Int.neg_tdiv, Int.tdiv_neg]

theorem signed_ofNat (negative : Bool) (magnitude : ℕ) :
    (if negative then -BitVec.ofNat 128 magnitude else BitVec.ofNat 128 magnitude) =
      BitVec.ofInt 128 (signed negative magnitude) := by
  cases negative
  · simp [signed]
  · simp [signed, BitVec.ofInt_neg]

theorem magnitude_eq (z : BitVec 128) :
    (if z.slt 0 then -z else z) = BitVec.ofNat 128 z.toInt.natAbs := by
  have sign : z.slt 0 = decide (z.toInt < 0) := rfl
  have whole := signed_ofNat (z.toInt < 0) z.toInt.natAbs
  rw [signed_natAbs, BitVec.ofInt_toInt] at whole
  rw [sign]
  by_cases negative : z.toInt < 0
  · simp only [negative, decide_true, if_true] at whole ⊢
    exact (BitVec.neg_neg.symm.trans (congrArg (- ·) whole)).symm
  · simp only [negative, decide_false, Bool.false_eq_true, if_false] at whole ⊢
    exact whole.symm

theorem outputSign_eq (x y : BitVec 128) :
    outputSign x y = (decide (x.toInt < 0) != decide (y.toInt < 0),
      BitVec.ofNat 128 x.toInt.natAbs, BitVec.ofNat 128 y.toInt.natAbs) := by
  rw [outputSign, magnitude_eq, magnitude_eq]
  rfl

theorem natAbs_le (z : BitVec 128) : z.toInt.natAbs ≤ 2 ^ 127 := by
  have low := BitVec.le_toInt z
  have high := BitVec.toInt_lt (x := z)
  omega

theorem magnitude_toNat (z : BitVec 128) :
    (BitVec.ofNat 128 z.toInt.natAbs).toNat = z.toInt.natAbs := by
  have bound := natAbs_le z
  rw [BitVec.toNat_ofNat, Nat.mod_eq_of_lt (by omega)]

theorem product_eq (x y : ℤ) :
    (x * y).tdiv (2 ^ 64) =
      signed (decide (x < 0) != decide (y < 0)) (x.natAbs * y.natAbs / 2 ^ 64) := by
  conv_lhs => rw [← signed_natAbs x, ← signed_natAbs y, signed_mul]
  exact (signed_tdiv _ false _ (2 ^ 64)).trans (congrArg (signed · _) (Bool.xor_false _))

theorem mul_eq (this o : Int64x64) :
    this.mul o =
      some ⟨BitVec.ofInt 128 ((this.v.toInt * o.v.toInt).tdiv (2 ^ 64))⟩ := by
  have unsigned := umul_eq ((magnitude_toNat this.v).trans_le (natAbs_le this.v))
    ((magnitude_toNat o.v).trans_le (natAbs_le o.v))
  rw [magnitude_toNat, magnitude_toNat] at unsigned
  rw [mul, outputSign_eq, product_eq, ← signed_ofNat]
  simp only [unsigned, Option.bind_eq_bind, Option.bind_some, Option.pure_def]

theorem ofInt_eq_iff (value : ℤ) :
    (BitVec.ofInt 128 value).toInt = value ↔ -2 ^ 127 ≤ value ∧ value < 2 ^ 127 := by
  rw [BitVec.toInt_ofInt, Int.bmod_def]
  omega

/-- No overflow is refused, so that a product is right exactly where it fits. -/
theorem mulExact_iff (this o : Int64x64) : MulExact this o ↔ ProductFits this o := by
  have right : MulExact this o ↔
      -2 ^ 127 ≤ (this.v.toInt * o.v.toInt).tdiv (2 ^ 64) ∧
        (this.v.toInt * o.v.toInt).tdiv (2 ^ 64) < 2 ^ 127 := by
    rw [← ofInt_eq_iff, MulExact, mul_eq]
    simp
  have first : this.v.slt 0 = decide (this.v.toInt < 0) := rfl
  have second : o.v.slt 0 = decide (o.v.toInt < 0) := rfl
  rw [right, product_eq, ProductFits, first, second]
  generalize this.v.toInt.natAbs * o.v.toInt.natAbs = product
  by_cases same : decide (this.v.toInt < 0) = decide (o.v.toInt < 0)
  · rw [if_pos same, same, bne_self_eq_false, signed, if_neg Bool.false_ne_true]
    omega
  · rw [if_neg same, bne_iff_ne.mpr same, signed, if_pos rfl]
    omega

/-- 2^62 times 4 comes out as 0. -/
theorem mul_wraps :
    mul ⟨BitVec.ofNat 128 (2 ^ 126)⟩ ⟨BitVec.ofNat 128 (2 ^ 66)⟩ = some ⟨0⟩ ∧
      ¬ MulExact ⟨BitVec.ofNat 128 (2 ^ 126)⟩ ⟨BitVec.ofNat 128 (2 ^ 66)⟩ := by
  have wrapped : mul ⟨BitVec.ofNat 128 (2 ^ 126)⟩ ⟨BitVec.ofNat 128 (2 ^ 66)⟩ = some ⟨0⟩ := by decide
  refine ⟨wrapped, ?_⟩
  rintro (refused | ⟨product, made, right⟩)
  · rw [wrapped] at refused
    cases refused
  · rw [wrapped, Option.some.injEq] at made
    subst made
    exact absurd right (by decide)

end Int64x64

end FISim.FixedPoint
