import FISim.Buffers.Copying

/-!
What the reading functions of an iterator return: the bytes that its buffer has
there, wherever they live.
-/

namespace FISim.Buffers

open Cells

namespace Iterator

open Buffer

variable {mem : Memory} {b : Buffer} {it : Iterator} {offset count : ℕ}

theorem read_before (points : b.Points it offset) (formed : b.Formed mem)
    (before : b.start.toNat + offset + count ≤ b.zeroAreaStart.toNat) :
    mem.read it.data it.current.toNat count = some (b.bytesFrom mem offset count) := by
  have inside := formed.inside
  have second := formed.zero_le
  have third := formed.end_le
  unfold blockEnd gap at inside
  rw [points.data, points.current, bytesFrom_before before]
  apply read_spec
  right
  omega

theorem read_behind (points : b.Points it offset) (formed : b.Formed mem)
    (behind : b.zeroAreaEnd.toNat ≤ b.start.toNat + offset) (within : offset + count ≤ b.size) :
    mem.read it.data (it.current - (it.zeroEnd - it.zeroStart)).toNat count =
      some (b.bytesFrom mem offset count) := by
  have inside := formed.inside
  have first := formed.start_le
  have second := formed.zero_le
  have third := formed.end_le
  have current := points.current
  have gap : (it.zeroEnd - it.zeroStart).toNat = b.gap := by
    rw [points.zeroEnd, points.zeroStart]
    exact formed.zeroSize
  unfold blockEnd at inside
  unfold Buffer.size at within
  rw [← bytes_behind points formed (.inr behind), points.data]
  apply read_spec
  right
  rw [UInt32.toNat_sub_of_le _ _ (by
    rw [UInt32.le_iff_toNat_le, gap]
    unfold Buffer.gap
    omega), gap]
  unfold Buffer.gap at *
  omega

theorem peekU8_spec (points : b.Points it offset) (formed : b.Formed mem)
    (within : offset < b.size) : it.peekU8 mem = some (b.byteAt mem offset) := by
  have current := points.current
  have inside : it.dataStart ≤ it.current ∧ it.current < it.dataEnd := by
    have first := formed.start_le
    have second := formed.zero_le
    have third := formed.end_le
    unfold Buffer.size at within
    rw [UInt32.le_iff_toNat_le, UInt32.lt_iff_toNat_lt, points.dataStart, points.dataEnd, current]
    omega
  have only : (b.bytesFrom mem offset 1)[0]? = some (b.byteAt mem offset) :=
    bytesFrom_getElem? Nat.zero_lt_one
  unfold peekU8
  simp only [guard, if_pos inside, Option.pure_def, Option.bind_eq_bind, Option.bind_some]
  by_cases before : it.current < it.zeroStart
  · rw [if_pos before]
    rw [UInt32.lt_iff_toNat_lt, points.zeroStart, current] at before
    rw [@read_before _ _ _ _ 1 points formed before, Option.bind_some, only]
  · rw [if_neg before]
    rw [UInt32.lt_iff_toNat_lt, points.zeroStart, current] at before
    by_cases zero : it.current < it.zeroEnd
    · rw [if_pos zero]
      rw [UInt32.lt_iff_toNat_lt, points.zeroEnd, current] at zero
      unfold byteAt
      simp only [if_neg before, if_pos zero]
    · rw [if_neg zero]
      rw [UInt32.lt_iff_toNat_lt, points.zeroEnd, current] at zero
      rw [@read_behind _ _ _ _ 1 points formed (by omega) within, Option.bind_some, only]

theorem readU8_spec (points : b.Points it offset) (formed : b.Formed mem)
    (within : offset < b.size) :
    ∃ moved, it.readU8 mem = some (b.byteAt mem offset, moved) ∧ b.Points moved (offset + 1) := by
  refine ⟨_, ?_, Points.advance points formed within⟩
  simp only [readU8, peekU8_spec points formed within, Option.bind_eq_bind, Option.bind_some]
  rfl

theorem slowReadNtoh_spec (points : b.Points it offset) (formed : b.Formed mem)
    (within : offset + count ≤ b.size) :
    ∃ moved, it.slowReadNtoh mem count = some (b.bytesFrom mem offset count, moved) ∧
      b.Points moved (offset + count) := by
  induction count generalizing it offset with
  | zero => exact ⟨it, rfl, points⟩
  | succ count ih =>
      obtain ⟨middle, first, at₁⟩ := readU8_spec points formed (by omega)
      obtain ⟨moved, rest, at₂⟩ := ih at₁ (by omega)
      refine ⟨moved, ?_, ?_⟩
      · simp only [slowReadNtoh, first, rest, Option.bind_eq_bind, Option.bind_some]
        rw [Nat.add_comm count 1, bytesFrom_add]
        rfl
      · rwa [Nat.add_assoc, Nat.add_comm 1 count] at at₂

theorem readNtoh_spec (points : b.Points it offset) (formed : b.Formed mem)
    (within : offset + count ≤ b.size) :
    ∃ moved, it.readNtoh mem count = some (b.bytesFrom mem offset count, moved) ∧
      b.Points moved (offset + count) := by
  have advanced := Points.advance points formed within
  have after := advanced.current
  have current := points.current
  unfold readNtoh
  by_cases before : it.current + UInt32.ofNat count ≤ it.zeroStart
  · simp only [if_pos before]
    rw [UInt32.le_iff_toNat_le, after, points.zeroStart] at before
    rw [read_before points formed (by omega)]
    exact ⟨_, rfl, advanced⟩
  · simp only [if_neg before]
    by_cases behind : it.zeroEnd ≤ it.current
    · simp only [if_pos behind]
      rw [UInt32.le_iff_toNat_le, current, points.zeroEnd] at behind
      rw [read_behind points formed behind within]
      exact ⟨_, rfl, advanced⟩
    · simp only [if_neg behind]
      exact slowReadNtoh_spec points formed within

end Iterator

end FISim.Buffers
