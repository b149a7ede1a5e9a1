import FISim.FixedPoint.Int64x64
import FISim.Lib.LongDivision
import Mathlib.Data.Nat.ModEq

/-!
How `int64x64_t` divides: a long division in binary, with as many digits in each round as the
remainder's leading and the divisor's trailing zeros allow.
-/

namespace FISim.FixedPoint

open LongDivision

namespace Int64x64

/-- `Udiv` skips the trailing zeros of the divisor, and counts them in `shift`. -/
def skipTrailingZeros (den : BitVec 128) (shift : ℕ) : BitVec 128 × ℕ :=
  if shift < 64 ∧ den &&& 1 = 0 then skipTrailingZeros (den >>> 1) (shift + 1) else (den, shift)
termination_by 64 - shift

def hp128MaskHiBit : BitVec 128 := 1 <<< 127

def skipLeadingZeros (digis : ℕ) (rem : BitVec 128) (shift : ℕ) : BitVec 128 × ℕ :=
  if digis + shift < 64 ∧ rem &&& hp128MaskHiBit = 0 then
    skipLeadingZeros digis (rem <<< 1) (shift + 1)
  else (rem, shift)
termination_by 64 - (digis + shift)

def castOffBits (digis : ℕ) (rem den : BitVec 128) (shift : ℕ) : BitVec 128 × ℕ :=
  if digis + shift < 64 ∧ (den &&& 1 = 0 ∨ rem < den) then
    castOffBits digis rem (den >>> 1) (shift + 1)
  else (den, shift)
termination_by 64 - (digis + shift)

/-- The rounds of `Udiv`: the quotient so far and the number of its digits behind the point. -/
def rounds : ℕ → BitVec 128 → BitVec 128 → BitVec 128 → ℕ → ℕ → Option (BitVec 128 × ℕ)
  | 0, _, _, _, _, _ => none
  | fuel + 1, rem, den, result, digis, shift =>
      if digis < 64 ∧ rem ≠ 0 then
        let (rem, shift) := skipLeadingZeros digis rem shift
        let (den, shift) := castOffBits digis rem den shift
        if den = 0 then none
        else rounds fuel (rem % den) den (result <<< shift + rem / den) (digis + shift) 0
      else some (result, digis)

def udiv (fuel : ℕ) (a b : BitVec 128) : Option (BitVec 128) :=
  if b = 0 then none
  else
    let rem := a % b
    if rem < b then do
      let (den, shift) := skipTrailingZeros b 0
      let (result, digis) ← rounds fuel rem den (a / b) 0 shift
      return if digis < 64 then result <<< (64 - digis) else result
    else none

def div (fuel : ℕ) (this o : Int64x64) : Option Int64x64 := do
  let (negative, a, b) := outputSign this.v o.v
  let result ← udiv fuel a b
  return ⟨if negative then -result else result⟩

theorem even_iff (a : BitVec 128) : a &&& 1 = 0 ↔ a.toNat % 2 = 0 := by
  rw [← BitVec.toNat_inj, BitVec.toNat_and]
  exact iff_of_eq (congrArg (· = 0) (Nat.and_one_is_mod a.toNat))

theorem half_toNat (a : BitVec 128) : (a >>> 1).toNat = a.toNat / 2 := by
  rw [BitVec.toNat_ushiftRight, Nat.shiftRight_eq_div_pow, Nat.pow_one]

theorem hiBit_iff (a : BitVec 128) : a &&& hp128MaskHiBit = 0 ↔ a.toNat < 2 ^ 127 := by
  have mask : hp128MaskHiBit = BitVec.twoPow 128 127 := rfl
  have top : a.getLsbD 127 = decide (2 ^ 127 ≤ a.toNat) := BitVec.msb_eq_decide a
  rw [mask, BitVec.and_twoPow, top]
  by_cases set : 2 ^ 127 ≤ a.toNat
  · simp only [set, decide_true, if_true]
    exact iff_of_false (by decide) (by omega)
  · simp only [set, decide_false, Bool.false_eq_true, if_false]
    exact iff_of_true rfl (by omega)

/-! What the loops leave as it is. -/

theorem skipTrailingZeros_spec (den : BitVec 128) {shift : ℕ} (room : shift ≤ 64) :
    ∃ down, (skipTrailingZeros den shift).2 = shift + down ∧ shift + down ≤ 64 ∧
      (skipTrailingZeros den shift).1.toNat * 2 ^ down = den.toNat := by
  fun_induction skipTrailingZeros den shift with
  | case1 den shift goes ih =>
      obtain ⟨down, counted, within, kept⟩ := ih (by omega)
      have even := (even_iff den).mp goes.2
      refine ⟨down + 1, by omega, by omega, ?_⟩
      rw [Nat.pow_succ, ← Nat.mul_assoc, kept, half_toNat]
      omega
  | case2 den shift stops => exact ⟨0, rfl, room, Nat.mul_one _⟩

theorem skipLeadingZeros_exact (digis : ℕ) (rem : BitVec 128) (shift : ℕ) :
    ∃ up, (skipLeadingZeros digis rem shift).2 = shift + up ∧
      (skipLeadingZeros digis rem shift).1.toNat = rem.toNat * 2 ^ up := by
  fun_induction skipLeadingZeros digis rem shift with
  | case1 rem shift goes ih =>
      obtain ⟨up, counted, kept⟩ := ih
      have unset := (hiBit_iff rem).mp goes.2
      refine ⟨up + 1, by omega, ?_⟩
      rw [kept, BitVec.toNat_shiftLeft, Nat.shiftLeft_eq, Nat.mod_eq_of_lt (by omega), Nat.pow_succ]
      ring
  | case2 rem shift stops => exact ⟨0, rfl, (Nat.mul_one _).symm⟩

theorem skipLeadingZeros_stops {digis shift : ℕ} (rem : BitVec 128) (room : digis + shift ≤ 64) :
    digis + (skipLeadingZeros digis rem shift).2 ≤ 64 ∧
      (digis + (skipLeadingZeros digis rem shift).2 = 64 ∨
        2 ^ 127 ≤ (skipLeadingZeros digis rem shift).1.toNat) := by
  fun_induction skipLeadingZeros digis rem shift with
  | case1 rem shift goes ih => exact ih (by omega)
  | case2 rem shift stops =>
      refine ⟨room, ?_⟩
      rw [hiBit_iff] at stops
      change digis + shift = 64 ∨ 2 ^ 127 ≤ rem.toNat
      omega

theorem castOffBits_spec {digis shift : ℕ} {rem den : BitVec 128} (room : digis + shift ≤ 64)
    (small : den.toNat ≤ 2 ^ 127) (ready : digis + shift = 64 ∨ 2 ^ 127 ≤ rem.toNat) :
    ∃ down, (castOffBits digis rem den shift).2 = shift + down ∧ digis + shift + down ≤ 64 ∧
      (castOffBits digis rem den shift).1.toNat * 2 ^ down = den.toNat := by
  fun_induction castOffBits digis rem den shift with
  | case1 den shift goes ih =>
      have even : den.toNat % 2 = 0 := by
        rcases goes.2 with unset | less
        · exact (even_iff den).mp unset
        · have less := BitVec.lt_def.mp less
          omega
      have half := half_toNat den
      obtain ⟨down, counted, within, kept⟩ := ih (by omega) (by omega) (by omega)
      refine ⟨down + 1, by omega, by omega, ?_⟩
      rw [Nat.pow_succ, ← Nat.mul_assoc, kept, half]
      omega
  | case2 den shift stops => exact ⟨0, rfl, room, Nat.mul_one _⟩

theorem round_result {count shift : ℕ} (result rem den : BitVec 128) (positive : 0 < den.toNat) :
    result.toNat * 2 ^ (shift + count) + digits 2 count rem.toNat den.toNat ≡
      (result <<< shift + rem / den).toNat * 2 ^ count +
        digits 2 count (rem % den).toNat den.toNat [MOD 2 ^ 128] := by
  rw [digits_round 2 count _ positive, ← BitVec.toNat_umod, ← Nat.add_assoc]
  refine Nat.ModEq.add_right _ ?_
  have whole : result.toNat * 2 ^ (shift + count) + rem.toNat / den.toNat * 2 ^ count =
      (result.toNat * 2 ^ shift + rem.toNat / den.toNat) * 2 ^ count := by
    rw [Nat.pow_add]
    ring
  rw [whole, BitVec.toNat_add, BitVec.toNat_shiftLeft, Nat.shiftLeft_eq, BitVec.toNat_udiv]
  refine Nat.ModEq.mul_right _ ?_
  exact ((Nat.mod_modEq _ _).trans ((Nat.mod_modEq _ _).add_right _)).symm

theorem rounds_spec {fuel digis shift : ℕ} {rem den : BitVec 128} (result : BitVec 128)
    (positive : 0 < den.toNat) (small : den.toNat ≤ 2 ^ 127)
    (room : digis + shift ≤ 64) (ready : rem.toNat < den.toNat ∨ 0 < shift)
    (enough : 64 < fuel + digis) :
    ∃ quotient count, rounds fuel rem den result digis shift = some (quotient, count) ∧ count ≤ 64 ∧
      quotient.toNat * 2 ^ (64 - count) ≡
        result.toNat * 2 ^ (64 - digis) + digits 2 (64 - digis - shift) rem.toNat den.toNat
          [MOD 2 ^ 128] := by
  induction fuel generalizing digis shift rem den result with
  | zero => omega
  | succ fuel ih =>
      rw [rounds]
      by_cases goes : digis < 64 ∧ rem ≠ 0
      · rw [if_pos goes]
        obtain ⟨up, counted, shifted⟩ := skipLeadingZeros_exact digis rem shift
        obtain ⟨within, normal⟩ := skipLeadingZeros_stops rem room
        generalize skipLeadingZeros digis rem shift = leading at *
        obtain ⟨remUp, shiftUp⟩ := leading
        simp only at counted shifted within normal ⊢
        subst counted
        obtain ⟨down, counted, inside, cast⟩ := castOffBits_spec within small normal
        generalize castOffBits digis remUp den (shift + up) = rest at *
        obtain ⟨denDown, shiftDown⟩ := rest
        simp only at counted cast ⊢
        subst counted
        have left : 0 < denDown.toNat := by
          rw [← cast] at positive
          exact Nat.pos_of_mul_pos_right positive
        have notZero : denDown ≠ 0 := by
          rintro rfl
          exact absurd left (Nat.lt_irrefl 0)
        have progress : 0 < shift + up + down := by
          by_contra stuck
          obtain rfl : up = 0 := by omega
          rw [Nat.pow_zero, Nat.mul_one] at shifted
          omega
        have smaller : denDown.toNat ≤ 2 ^ 127 := by
          rw [← cast] at small
          exact (Nat.le_mul_of_pos_right _ (Nat.two_pow_pos down)).trans small
        have wanted : digis + (shift + up + down) + 0 ≤ 64 := by omega
        have reduced : (remUp % denDown).toNat < denDown.toNat ∨ 0 < 0 := by
          rw [BitVec.toNat_umod]
          exact Or.inl (Nat.mod_lt _ left)
        obtain ⟨quotient, count, run, digits64, right⟩ :=
          ih (result <<< (shift + up + down) + remUp / denDown) left smaller wanted reduced (by omega)
        refine ⟨quotient, count, ?_, digits64, right.trans ?_⟩
        · rw [if_neg notZero]
          exact run
        · obtain ⟨more, all⟩ := Nat.exists_eq_add_of_le wanted
          have before : 64 - digis = shift + up + down + more := by omega
          have rest : 64 - digis - shift = up + down + more := by omega
          have after : 64 - (digis + (shift + up + down)) = more := by omega
          rw [rest, before, after, Nat.sub_zero, ← cast, digits_shift (by decide), ← shifted]
          exact (round_result result remUp denDown left).symm
      · rw [if_neg goes]
        refine ⟨result, digis, rfl, by omega, ?_⟩
        have nothing : digits 2 (64 - digis - shift) rem.toNat den.toNat = 0 := by
          by_cases done : digis < 64
          · have zero : rem = 0 := by
              by_contra left
              exact goes ⟨done, left⟩
            rw [zero]
            exact digits_zero_rem _ _ _
          · have none : 64 - digis - shift = 0 := by omega
            rw [none]
            exact digits_zero_count _ (by omega)
        rw [nothing, Nat.add_zero]

theorem udiv_eq {fuel : ℕ} {a b : BitVec 128} (nonzero : b ≠ 0) (small : b.toNat ≤ 2 ^ 127)
    (enough : 64 < fuel) :
    udiv fuel a b = some (BitVec.ofNat 128 (a.toNat * 2 ^ 64 / b.toNat)) := by
  have positive : 0 < b.toNat := by
    refine Nat.pos_of_ne_zero fun zero => nonzero ?_
    exact BitVec.eq_of_toNat_eq zero
  have less : a % b < b := by
    rw [BitVec.lt_def, BitVec.toNat_umod]
    exact Nat.mod_lt _ positive
  obtain ⟨down, counted, within, kept⟩ := skipTrailingZeros_spec b (Nat.zero_le 64)
  rw [udiv, if_neg nonzero]
  simp only [if_pos less]
  generalize skipTrailingZeros b 0 = trailing at *
  obtain ⟨den, shift⟩ := trailing
  simp only [Nat.zero_add] at counted kept within ⊢
  subst counted
  have left : 0 < den.toNat := by
    rw [← kept] at positive
    exact Nat.pos_of_mul_pos_right positive
  have smaller : den.toNat ≤ 2 ^ 127 := by
    rw [← kept] at small
    exact (Nat.le_mul_of_pos_right _ (Nat.two_pow_pos shift)).trans small
  have ready : (a % b).toNat < den.toNat ∨ 0 < shift := by
    rcases Nat.eq_zero_or_pos shift with rfl | skipped
    · rw [Nat.pow_zero, Nat.mul_one] at kept
      exact Or.inl (kept ▸ BitVec.lt_def.mp less)
    · exact Or.inr skipped
  obtain ⟨quotient, count, run, inside, right⟩ :=
    rounds_spec (a / b) left smaller (show 0 + shift ≤ 64 by omega) ready (by omega)
  have value : quotient.toNat * 2 ^ (64 - count) % 2 ^ 128 =
      a.toNat * 2 ^ 64 / b.toNat % 2 ^ 128 := by
    have whole : digits 2 64 (a % b).toNat b.toNat = digits 2 (64 - shift) (a % b).toNat den.toNat := by
      have shifted := digits_shift Nat.two_pos 0 shift (64 - shift) (a % b).toNat den.toNat
      rw [kept, Nat.zero_add, Nat.add_sub_of_le within, Nat.pow_zero, Nat.mul_one] at shifted
      exact shifted
    have split := digits_round 2 64 a.toNat positive
    rw [← BitVec.toNat_udiv, ← BitVec.toNat_umod, whole] at split
    exact right.trans (congrArg (· % 2 ^ 128) split).symm
  rw [run]
  refine congrArg some (BitVec.eq_of_toNat_eq ?_)
  rw [BitVec.toNat_ofNat, ← value]
  by_cases more : count < 64
  · rw [if_pos more, BitVec.toNat_shiftLeft, Nat.shiftLeft_eq]
  · have all : 64 - count = 0 := by omega
    rw [if_neg more, all, Nat.pow_zero, Nat.mul_one, Nat.mod_eq_of_lt quotient.isLt]

theorem quotient_eq (x y : ℤ) :
    (x * 2 ^ 64).tdiv y =
      signed (decide (x < 0) != decide (y < 0)) (x.natAbs * 2 ^ 64 / y.natAbs) := by
  conv_lhs => rw [← signed_natAbs x, ← signed_natAbs y]
  have scaled : signed (decide (x < 0)) x.natAbs * 2 ^ 64 =
      signed (decide (x < 0)) (x.natAbs * 2 ^ 64) := by
    have product := signed_mul (decide (x < 0)) false x.natAbs (2 ^ 64)
    rw [Bool.bne_false] at product
    exact product
  rw [scaled, signed_tdiv]

theorem div_eq {fuel : ℕ} (this o : Int64x64) (nonzero : o.v ≠ 0) (enough : 64 < fuel) :
    this.div fuel o =
      some ⟨BitVec.ofInt 128 ((this.v.toInt * 2 ^ 64).tdiv o.v.toInt)⟩ := by
  have divisor : BitVec.ofNat 128 o.v.toInt.natAbs ≠ 0 := by
    intro zero
    have magnitude := magnitude_toNat o.v
    rw [zero] at magnitude
    refine nonzero (BitVec.eq_of_toInt_eq ?_)
    exact Int.natAbs_eq_zero.mp magnitude.symm
  have unsigned := udiv_eq divisor ((magnitude_toNat o.v).trans_le (natAbs_le o.v)) enough
    (a := BitVec.ofNat 128 this.v.toInt.natAbs)
  rw [magnitude_toNat, magnitude_toNat] at unsigned
  rw [div, outputSign_eq, quotient_eq, ← signed_ofNat]
  simp only [unsigned, Option.bind_eq_bind, Option.bind_some, Option.pure_def]

/-- For magnitudes up to 2^127 a division ends, divides by no zero and shifts no set bit out of the
remainder, and where the quotient fits it is the one cut off towards zero. -/
theorem division_exact {fuel : ℕ} (enough : 64 < fuel) :
    (∀ a b : BitVec 128, b ≠ 0 → a.toNat ≤ 2 ^ 127 → b.toNat ≤ 2 ^ 127 →
      udiv fuel a b = some (BitVec.ofNat 128 (a.toNat * 2 ^ 64 / b.toNat))) ∧
    (∀ digis rem shift, ∃ up, (skipLeadingZeros digis rem shift).2 = shift + up ∧
      (skipLeadingZeros digis rem shift).1.toNat = rem.toNat * 2 ^ up) ∧
    ∀ this o : Int64x64, o.v ≠ 0 →
      -2 ^ 127 ≤ (this.v.toInt * 2 ^ 64).tdiv o.v.toInt →
      (this.v.toInt * 2 ^ 64).tdiv o.v.toInt < 2 ^ 127 →
        ∃ quotient, this.div fuel o = some quotient ∧
          quotient.v.toInt = (this.v.toInt * 2 ^ 64).tdiv o.v.toInt := by
  refine ⟨?_, skipLeadingZeros_exact, ?_⟩
  · intro a b nonzero _ small
    exact udiv_eq nonzero small enough
  · intro this o nonzero low high
    exact ⟨_, div_eq this o nonzero enough, (ofInt_eq_iff _).mpr ⟨low, high⟩⟩

/-- 7 by -2 is -3.5. -/
theorem division_exact_seven :
    ∃ quotient, div 65 ⟨BitVec.ofNat 128 (7 * 2 ^ 64)⟩ ⟨BitVec.ofInt 128 (-2 * 2 ^ 64)⟩ =
        some quotient ∧
      quotient.v.toInt = ((BitVec.ofNat 128 (7 * 2 ^ 64)).toInt * 2 ^ 64).tdiv
        (BitVec.ofInt 128 (-2 * 2 ^ 64)).toInt :=
  (division_exact (by decide)).2.2 ⟨BitVec.ofNat 128 (7 * 2 ^ 64)⟩
    ⟨BitVec.ofInt 128 (-2 * 2 ^ 64)⟩ (by decide) (by decide) (by decide)

end Int64x64

end FISim.FixedPoint
