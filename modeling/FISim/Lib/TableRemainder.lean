import Mathlib.Data.Nat.Bitwise
import Mathlib.Data.List.Perm.Subperm
import Mathlib.Data.List.Nodup

/-!
Remainders that are computed byte by byte from a table, as cyclic redundancy checks
are.  Bytes that differ in up to four consecutive places have different remainders.
-/

namespace TableRemainder

/-- Whatever the table is, as long as the upper bytes of its words tell them apart. -/
def Distinct (table : UInt8 → UInt32) : Prop :=
  ∀ one other, table one >>> 24 = table other >>> 24 → one = other

def step (table : UInt8 → UInt32) (remainder : UInt32) (byte : UInt8) : UInt32 :=
  (remainder >>> 8) ^^^ table (remainder.toUInt8 ^^^ byte)

def remainder (table : UInt8 → UInt32) (start : UInt32) (bytes : List UInt8) : UInt32 :=
  bytes.foldl (step table) start

/-- The word that the bytes spell, the first of them lowest. -/
def word : List UInt8 → UInt32
  | [] => 0
  | byte :: rest => byte.toUInt32 ^^^ (word rest <<< 8)

section Words

theorem toNat_shiftRight_eight (value : UInt32) : (value >>> 8).toNat = value.toNat / 256 := by
  rw [UInt32.toNat_shiftRight]
  exact Nat.shiftRight_eq_div_pow _ 8

theorem toNat_shiftLeft_eight (value : UInt32) :
    (value <<< 8).toNat = value.toNat * 256 % 2 ^ 32 := by
  rw [UInt32.toNat_shiftLeft]
  exact congrArg (· % 2 ^ 32) (Nat.shiftLeft_eq _ 8)

theorem eq_of_bytes {one other : UInt32} (low : one.toUInt8 = other.toUInt8)
    (high : one >>> 8 = other >>> 8) : one = other := by
  have lows := congrArg UInt8.toNat low
  have highs := congrArg UInt32.toNat high
  rw [UInt32.toNat_toUInt8, UInt32.toNat_toUInt8] at lows
  rw [toNat_shiftRight_eight, toNat_shiftRight_eight] at highs
  apply UInt32.toNat_inj.mp
  omega

theorem shiftRight_byte (byte : UInt8) : byte.toUInt32 >>> 8 = 0 := by
  apply UInt32.toNat_inj.mp
  have small := byte.toNat_lt
  rw [toNat_shiftRight_eight, UInt8.toNat_toUInt32]
  exact Nat.div_eq_of_lt small

theorem shiftLeft_low (value : UInt32) : (value <<< 8).toUInt8 = 0 := by
  apply UInt8.toNat_inj.mp
  rw [UInt32.toNat_toUInt8, toNat_shiftLeft_eight]
  change _ = 0
  omega

theorem shiftLeft_shiftRight {value : UInt32} (small : value.toNat < 2 ^ 24) :
    (value <<< 8) >>> 8 = value := by
  apply UInt32.toNat_inj.mp
  rw [toNat_shiftRight_eight, toNat_shiftLeft_eight]
  omega

theorem shiftRight_all (value : UInt32) : (value >>> 8) >>> 24 = 0 := by
  apply UInt32.toNat_inj.mp
  have small := value.toNat_lt
  simp only [UInt32.toNat_shiftRight, Nat.shiftRight_eq_div_pow, UInt32.reduceToNat,
    Nat.reduceMod, Nat.reducePow]
  omega

theorem word_low (byte : UInt8) (rest : List UInt8) : (word (byte :: rest)).toUInt8 = byte := by
  rw [word, UInt32.toUInt8_xor, shiftLeft_low]
  simp

theorem word_high (byte : UInt8) {rest : List UInt8} (small : (word rest).toNat < 2 ^ 24) :
    word (byte :: rest) >>> 8 = word rest := by
  rw [word, UInt32.shiftRight_xor, shiftRight_byte, shiftLeft_shiftRight small, UInt32.zero_xor]

theorem word_toNat (byte : UInt8) {rest : List UInt8} (small : (word rest).toNat < 2 ^ 24) :
    (word (byte :: rest)).toNat = byte.toNat + 256 * (word rest).toNat := by
  have low := congrArg UInt8.toNat (word_low byte rest)
  have high := congrArg UInt32.toNat (word_high byte small)
  rw [UInt32.toNat_toUInt8] at low
  rw [toNat_shiftRight_eight] at high
  omega

theorem word_lt {bytes : List UInt8} (short : bytes.length ≤ 4) :
    (word bytes).toNat < 256 ^ bytes.length := by
  induction bytes with
  | nil => exact Nat.one_pos
  | cons byte rest ih =>
      have few : rest.length ≤ 3 := Nat.le_of_succ_le_succ short
      have below := ih (Nat.le_succ_of_le few)
      have power : 256 ^ rest.length ≤ 2 ^ 24 :=
        Nat.pow_le_pow_right (by decide : 0 < 256) few
      have byteSmall := byte.toNat_lt
      rw [word_toNat byte (lt_of_lt_of_le below power), List.length_cons, Nat.pow_succ]
      omega

theorem word_small {rest : List UInt8} (few : rest.length ≤ 3) : (word rest).toNat < 2 ^ 24 :=
  lt_of_lt_of_le (word_lt (Nat.le_succ_of_le few)) (Nat.pow_le_pow_right (by decide : 0 < 256) few)

theorem word_inj {one other : List UInt8} (same : one.length = other.length)
    (short : one.length ≤ 4) (equal : word one = word other) : one = other := by
  induction one generalizing other with
  | nil => exact (List.length_eq_zero_iff.mp same.symm).symm
  | cons byte rest ih =>
      cases other with
      | nil => cases same
      | cons second others =>
          have few : rest.length ≤ 3 := Nat.le_of_succ_le_succ short
          have lengths : rest.length = others.length := Nat.succ.inj same
          have lows := congrArg UInt32.toUInt8 equal
          have highs := congrArg (fun value : UInt32 => value >>> 8) equal
          rw [word_low, word_low] at lows
          simp only [word_high byte (word_small few), word_high second (word_small (lengths ▸ few))]
            at highs
          rw [lows, ih lengths (Nat.le_succ_of_le few) highs]

end Words

section Entries

def marks : List Nat → Nat
  | [] => 0
  | number :: rest => marks rest ||| 2 ^ number

theorem testBit_marks (numbers : List Nat) (index : Nat) :
    (marks numbers).testBit index = decide (index ∈ numbers) := by
  induction numbers with
  | nil => simp [marks]
  | cons number rest ih =>
      rw [marks, Nat.testBit_or, ih, Nat.testBit_two_pow]
      simp only [List.mem_cons, Bool.decide_or, Bool.or_comm, eq_comm]

theorem nodup_of_marks {numbers : List Nat} (all : marks numbers = 2 ^ numbers.length - 1) :
    numbers.Nodup := by
  have within : List.range numbers.length ⊆ numbers := by
    intro index below
    have marked := testBit_marks numbers index
    rw [all, Nat.testBit_two_pow_sub_one, decide_eq_true (List.mem_range.mp below)] at marked
    exact of_decide_eq_true marked.symm
  have perm : (List.range numbers.length).Perm numbers :=
    (List.subperm_of_subset List.nodup_range within).perm_of_length_le
      (Nat.le_of_eq List.length_range.symm)
  exact perm.nodup_iff.mp List.nodup_range

theorem distinct_of_marks {entries : List UInt32} (long : entries.length = 256)
    (all : marks (entries.map fun entry => entry.toNat / 2 ^ 24) = 2 ^ 256 - 1) :
    Distinct fun index => entries.getD index.toNat 0 := by
  have tops : (entries.map fun entry => entry.toNat / 2 ^ 24).Nodup :=
    nodup_of_marks (by rw [all, List.length_map, long])
  intro one other same
  have first : one.toNat < entries.length := long ▸ one.toNat_lt
  have second : other.toNat < entries.length := long ▸ other.toNat_lt
  have upper := congrArg UInt32.toNat same
  simp only [List.getD_eq_getElem _ _ first, List.getD_eq_getElem _ _ second,
    UInt32.toNat_shiftRight, Nat.shiftRight_eq_div_pow] at upper
  refine UInt8.toNat_inj.mp ((@List.Nodup.getElem_inj_iff _ _ tops
    _ (by rwa [List.length_map]) _ (by rwa [List.length_map])).mp ?_)
  rw [List.getElem_map, List.getElem_map]
  exact upper

end Entries

variable {table : UInt8 → UInt32} {before after one other : List UInt8}

theorem step_absorb (start : UInt32) (byte : UInt8) :
    step table start byte = step table (start ^^^ byte.toUInt32) 0 := by
  rw [step, step, UInt32.shiftRight_xor, shiftRight_byte, UInt32.xor_zero, UInt32.toUInt8_xor,
    UInt8.toUInt8_toUInt32, UInt8.xor_zero]

theorem step_later (start : UInt32) {later : UInt32} (small : later.toNat < 2 ^ 24) :
    step table (start ^^^ (later <<< 8)) 0 = step table start 0 ^^^ later := by
  rw [step, step, UInt32.shiftRight_xor, shiftLeft_shiftRight small, UInt32.toUInt8_xor,
    shiftLeft_low, UInt8.xor_zero, UInt32.xor_assoc, UInt32.xor_comm later, ← UInt32.xor_assoc]

theorem remainder_word (start : UInt32) {bytes : List UInt8} (short : bytes.length ≤ 4) :
    remainder table start bytes =
      remainder table (start ^^^ word bytes) (List.replicate bytes.length 0) := by
  induction bytes generalizing start with
  | nil => rw [word, UInt32.xor_zero]; rfl
  | cons byte rest ih =>
      have few : rest.length ≤ 3 := Nat.le_of_succ_le_succ short
      have first : remainder table start (byte :: rest) =
          remainder table (step table start byte) rest := rfl
      rw [first, ih _ (Nat.le_succ_of_le few), step_absorb, ← step_later _ (word_small few), word,
        ← UInt32.xor_assoc]
      rfl

variable (distinct : Distinct table)

include distinct

theorem step_inj {byte : UInt8} {first second : UInt32}
    (same : step table first byte = step table second byte) : first = second := by
  have tops := congrArg (fun value : UInt32 => value >>> 24) same
  simp only [step, UInt32.shiftRight_xor, shiftRight_all, UInt32.zero_xor] at tops
  have index := distinct _ _ tops
  rw [step, step, index] at same
  exact eq_of_bytes ((UInt8.xor_left_inj byte).mp index) ((UInt32.xor_left_inj _).mp same)

theorem remainder_inj {bytes : List UInt8} {first second : UInt32}
    (same : remainder table first bytes = remainder table second bytes) : first = second := by
  induction bytes generalizing first second with
  | nil => exact same
  | cons byte rest ih => exact step_inj distinct (ih same)

theorem remainder_ne (start : UInt32) (lengths : one.length = other.length)
    (short : one.length ≤ 4) (different : one ≠ other) :
    remainder table start (before ++ one ++ after) ≠
      remainder table start (before ++ other ++ after) := by
  intro same
  rw [remainder, remainder, List.foldl_append, List.foldl_append, List.foldl_append,
    List.foldl_append] at same
  have middle := remainder_inj distinct same
  have words := (remainder_word (remainder table start before) short).symm.trans
    (middle.trans (remainder_word _ (lengths ▸ short)))
  rw [lengths] at words
  have equal := (UInt32.xor_right_inj _).mp (remainder_inj distinct words)
  exact different (word_inj lengths short equal)

end TableRemainder
