import FISim.Buffers.Adding

/-!
What the writing functions of an iterator do to the bytes of its buffer, where
they keep off the zero area.
-/

namespace FISim.Buffers

open Cells

namespace Buffer

variable {mem mem' : Memory} {b : Buffer} {it : Iterator} {offset : ℕ} {bytes : List UInt8}

/-- The iterator is one of the buffer, that many bytes from its start. -/
structure Points (b : Buffer) (it : Iterator) (offset : ℕ) : Prop where
  zeroStart : it.zeroStart = b.zeroAreaStart
  zeroEnd : it.zeroEnd = b.zeroAreaEnd
  dataStart : it.dataStart = b.start
  dataEnd : it.dataEnd = b.endOffset
  data : it.data = b.data
  current : it.current.toNat = b.start.toNat + offset

theorem points_atBegin (b : Buffer) : b.Points b.atBegin 0 := ⟨rfl, rfl, rfl, rfl, rfl, rfl⟩

theorem points_atEnd (formed : b.Formed mem) : b.Points b.atEnd b.size := by
  have := formed.start_le
  have := formed.zero_le
  have := formed.end_le
  refine ⟨rfl, rfl, rfl, rfl, rfl, ?_⟩
  change b.endOffset.toNat = b.start.toNat + (b.endOffset.toNat - b.start.toNat)
  omega

theorem Points.next (points : b.Points it offset) (formed : b.Formed mem) (delta : UInt32)
    (within : offset + delta.toNat ≤ b.size) :
    ∃ moved, it.next delta = some moved ∧ b.Points moved (offset + delta.toNat) := by
  have := formed.start_le
  have := formed.zero_le
  have := formed.end_le
  have := b.endOffset.toNat_lt
  have current := points.current
  unfold size at within
  have after : (it.current + delta).toNat = b.start.toNat + (offset + delta.toNat) := by
    rw [UInt32.toNat_add]
    omega
  refine ⟨{ it with current := it.current + delta }, if_pos ?_, points.zeroStart, points.zeroEnd,
    points.dataStart, points.dataEnd, points.data, after⟩
  rw [UInt32.le_iff_toNat_le, after, points.dataEnd]
  omega

theorem Points.advance {count : ℕ} (points : b.Points it offset) (formed : b.Formed mem)
    (within : offset + count ≤ b.size) :
    b.Points { it with current := it.current + UInt32.ofNat count } (offset + count) := by
  have first := formed.start_le
  have second := formed.zero_le
  have third := formed.end_le
  have endLt := b.endOffset.toNat_lt
  have current := points.current
  unfold size at within
  refine ⟨points.zeroStart, points.zeroEnd, points.dataStart, points.dataEnd, points.data, ?_⟩
  change (it.current + UInt32.ofNat count).toNat = _
  rw [UInt32.toNat_add, UInt32.toNat_ofNat']
  omega

theorem Points.prev (points : b.Points it offset) (delta : UInt32)
    (within : delta.toNat ≤ offset) :
    ∃ moved, it.prev delta = some moved ∧ b.Points moved (offset - delta.toNat) := by
  have current := points.current
  have := it.current.toNat_lt
  refine ⟨{ it with current := it.current - delta }, if_pos ?_, points.zeroStart, points.zeroEnd,
    points.dataStart, points.dataEnd, points.data, ?_⟩
  · rw [UInt32.le_iff_toNat_le]
    omega
  · change (it.current - delta).toNat = _
    simp only [UInt32.toNat_sub]
    omega

/-- The bytes keep off the zero area, if there is one. -/
def Solid (b : Buffer) (offset count : ℕ) : Prop :=
  b.start.toNat + offset + count ≤ b.zeroAreaStart.toNat ∨
    b.zeroAreaEnd.toNat ≤ b.start.toNat + offset ∨ b.gap = 0

def Placed (b : Buffer) (offset count cell : ℕ) : Prop :=
  (cell = b.start.toNat + offset ∧
      (b.start.toNat + offset + count ≤ b.zeroAreaStart.toNat ∨ b.gap = 0)) ∨
    (cell + b.gap = b.start.toNat + offset ∧ b.zeroAreaEnd.toNat ≤ b.start.toNat + offset)

/-- The bytes have been written over those of the buffer, from the offset on. -/
def Wrote (mem mem' : Memory) (b : Buffer) (offset : ℕ) (bytes : List UInt8) : Prop :=
  ∃ cell, b.Placed offset bytes.length cell ∧
    mem' = mem.modify b.data fun data => { data with data := patch data.data cell bytes }

theorem Wrote.holds (wrote : Wrote mem mem' b offset bytes) {live : List Buffer}
    {pinned : List ℕ} (holds : mem.Holds live pinned) : mem'.Holds live pinned := by
  obtain ⟨cell, -, rfl⟩ := wrote
  exact holds.patch b.data cell bytes

theorem Wrote.inside (wrote : Wrote mem mem' b offset bytes) (formed : b.Formed mem)
    {index : ℕ} {byte : UInt8} (written : bytes[index]? = some byte) :
    b.byteAt mem' (offset + index) = byte := by
  obtain ⟨cell, place, rfl⟩ := wrote
  have first := formed.start_le
  have second := formed.zero_le
  have short := (List.getElem?_eq_some_iff.mp written).1
  unfold byteAt
  simp only [Memory.modify_self]
  unfold Placed gap at *
  split
  · rw [show b.start.toNat + (offset + index) = cell + index by omega]
    exact patch_inside written
  · rw [if_neg (by omega), show b.start.toNat + (offset + index) -
      (b.zeroAreaEnd.toNat - b.zeroAreaStart.toNat) = cell + index by omega]
    exact patch_inside written

theorem Wrote.outside (wrote : Wrote mem mem' b offset bytes) (formed : b.Formed mem)
    {index : ℕ} (elsewhere : index < offset ∨ offset + bytes.length ≤ index) :
    b.byteAt mem' index = b.byteAt mem index := by
  obtain ⟨cell, place, rfl⟩ := wrote
  have first := formed.start_le
  have second := formed.zero_le
  unfold byteAt
  simp only [Memory.modify_self]
  unfold Placed gap at *
  split
  · exact patch_outside (by omega)
  · split
    · rfl
    · exact patch_outside (by omega)

theorem Wrote.kept {m made : Memory} {c : Buffer} {others : List Buffer} {pinned : List ℕ}
    {front back : ℕ} (wrote : Wrote mem mem' b offset bytes)
    (grown : Grown m made c b others pinned front back) (formed : b.Formed mem)
    (gained : offset + bytes.length ≤ front ∨
      (b.size ≤ offset + back ∧ offset + bytes.length ≤ b.size))
    {d : Buffer} (member : d ∈ others) : d.Kept mem mem' := by
  obtain ⟨cell, place, rfl⟩ := wrote
  have := formed.start_le
  have := formed.zero_le
  have := formed.end_le
  have := grown.frontRoom
  have := grown.backRoom
  refine Memory.kept_patch ?_
  intro shared index lower upper
  refine grown.own d member shared index ?_
  unfold Placed blockEnd gap size at *
  omega

theorem solid_of_gained {m made : Memory} {c : Buffer} {others : List Buffer} {pinned : List ℕ}
    {front back count : ℕ} (grown : Grown m made c b others pinned front back)
    (formed : b.Formed mem)
    (gained : offset + count ≤ front ∨ (b.size ≤ offset + back ∧ offset + count ≤ b.size)) :
    b.Solid offset count := by
  have := formed.start_le
  have := formed.zero_le
  have := formed.end_le
  have := grown.frontRoom
  have := grown.backRoom
  unfold Solid size at *
  omega

/-- The buffer shows a string, as far as the bytes of the string are known. -/
def Shows (mem : Memory) (b : Buffer) (string : List (Option UInt8)) : Prop :=
  b.size = string.length ∧
    ∀ index byte, string[index]? = some (some byte) → b.byteAt mem index = byte

theorem Shows.inside {string : List (Option UInt8)} (shows : b.Shows mem string) {index : ℕ}
    {byte : Option UInt8} (known : string[index]? = some byte) : index < b.size := by
  rw [shows.1]
  exact (List.getElem?_eq_some_iff.mp known).1

theorem Shows.same {c : Buffer} {string : List (Option UInt8)} (shows : b.Shows mem string)
    (size : c.size = b.size)
    (bytes : ∀ index < b.size, c.byteAt mem' index = b.byteAt mem index) :
    c.Shows mem' string := by
  refine ⟨size.trans shows.1, ?_⟩
  intro index byte known
  rw [bytes index (shows.inside known)]
  exact shows.2 index byte known

theorem Shows.kept {string : List (Option UInt8)} (shows : b.Shows mem string)
    (kept : b.Kept mem mem') (formed : b.Formed mem) : b.Shows mem' string :=
  shows.same rfl fun _ inside => kept.byteAt formed inside

theorem Shows.grown {b' : Buffer} {others : List Buffer} {pinned : List ℕ} {front back : ℕ}
    {string : List (Option UInt8)} (shows : b.Shows mem string)
    (grown : Grown mem mem' b b' others pinned front back) :
    b'.Shows mem' (List.replicate front none ++ string ++ List.replicate back none) := by
  have size := grown.size
  have length := shows.1
  refine ⟨by simp only [List.length_append, List.length_replicate]; omega, ?_⟩
  intro index byte known
  by_cases gained : index < front
  · rw [List.append_assoc, List.getElem?_append_left (by simpa using gained),
      List.getElem?_replicate_of_lt gained] at known
    cases known
  · obtain ⟨place, rfl⟩ : ∃ place, index = front + place := ⟨index - front, by omega⟩
    by_cases inside : place < b.size
    · rw [grown.moved place inside]
      rw [List.append_assoc, List.getElem?_append_right (by simp), List.length_replicate,
        Nat.add_sub_cancel_left, List.getElem?_append_left (by omega)] at known
      exact shows.2 place byte known
    · rw [List.getElem?_append_right (by simp; omega), List.getElem?_replicate] at known
      split at known
      · cases known
      · cases known

/-- The bytes are those of the part, as far as its bytes are known. -/
def Matches (bytes : List UInt8) (part : List (Option UInt8)) : Prop :=
  part.length = bytes.length ∧
    ∀ (index : ℕ) (byte : UInt8), part[index]? = some (some byte) → bytes[index]? = some byte

theorem matches_map (bytes : List UInt8) : Matches bytes (bytes.map some) := by
  refine ⟨List.length_map some, ?_⟩
  intro index byte known
  rw [List.getElem?_map, Option.map_eq_some_iff] at known
  obtain ⟨found, written, same⟩ := known
  rw [written, Option.some.inj same]

theorem Shows.wrote {string part : List (Option UInt8)} (shows : b.Shows mem string)
    (wrote : Wrote mem mem' b offset bytes) (formed : b.Formed mem)
    (within : offset + bytes.length ≤ b.size) (is : Matches bytes part) :
    b.Shows mem' (overwrite string offset part) := by
  have length := shows.1
  have room : offset + part.length ≤ string.length := by
    rw [is.1]
    omega
  refine ⟨by rw [overwrite_length room]; exact length, ?_⟩
  intro index byte known
  rw [overwrite_getElem? room, is.1] at known
  by_cases inside : offset ≤ index ∧ index < offset + bytes.length
  · rw [if_pos inside] at known
    obtain ⟨place, rfl⟩ : ∃ place, index = offset + place := ⟨index - offset, by omega⟩
    rw [Nat.add_sub_cancel_left] at known
    exact wrote.inside formed (is.2 place byte known)
  · rw [if_neg inside] at known
    rw [wrote.outside formed (by omega)]
    exact shows.2 index byte known

section Gained

variable {m : Memory} {t : Buffer} {others : List Buffer} {pinned : List ℕ} {count : ℕ}
  {string part : List (Option UInt8)}

theorem Grown.wroteFront (grown : Grown m mem t b others pinned count 0)
    (shows : t.Shows m string) (wrote : Wrote mem mem' b 0 bytes)
    (length : bytes.length = count) (is : Matches bytes part) :
    mem'.Holds (b :: others) pinned ∧ (∀ c ∈ others, c.Kept m mem') ∧
      b.Shows mem' (part ++ string) := by
  have formed := grown.holds.formed b List.mem_cons_self
  have size := grown.size
  refine ⟨wrote.holds grown.holds, ?_, ?_⟩
  · intro c member
    exact (grown.kept c member).trans (wrote.kept grown formed (.inl (by omega)) member)
  · have shown := (shows.grown grown).wrote wrote formed (by omega) is
    rwa [List.replicate_zero, List.append_nil,
      overwrite_left (by rw [List.length_replicate, is.1, length])] at shown

theorem Grown.wroteBack (grown : Grown m mem t b others pinned 0 count)
    (shows : t.Shows m string) (wrote : Wrote mem mem' b t.size bytes)
    (length : bytes.length = count) (is : Matches bytes part) :
    mem'.Holds (b :: others) pinned ∧ (∀ c ∈ others, c.Kept m mem') ∧
      b.Shows mem' (string ++ part) := by
  have formed := grown.holds.formed b List.mem_cons_self
  have size := grown.size
  refine ⟨wrote.holds grown.holds, ?_, ?_⟩
  · intro c member
    exact (grown.kept c member).trans (wrote.kept grown formed (.inr (by omega)) member)
  · have shown := (shows.grown grown).wrote wrote formed (by omega) is
    rwa [List.replicate_zero, List.nil_append, shows.1,
      overwrite_right (by rw [List.length_replicate, is.1, length])] at shown

end Gained

end Buffer

namespace Iterator

open Buffer

variable {mem mem' : Memory} {b : Buffer} {it : Iterator} {offset : ℕ} {bytes : List UInt8}

theorem put_spec (points : b.Points it offset) (formed : b.Formed mem)
    (within : offset + bytes.length ≤ b.size) {allowed early : Bool} (permitted : allowed = true)
    (place : if early then b.start.toNat + offset + bytes.length ≤ b.zeroAreaStart.toNat ∨ b.gap = 0
      else b.zeroAreaEnd.toNat ≤ b.start.toNat + offset ∨ b.gap = 0) :
    ∃ mem' moved, it.put mem allowed early bytes = some (mem', moved) ∧
      b.Points moved (offset + bytes.length) ∧ Wrote mem mem' b offset bytes := by
  have first := formed.start_le
  have second := formed.zero_le
  have third := formed.end_le
  have inside := formed.inside
  have current := points.current
  have := it.current.toNat_lt
  have := b.endOffset.toNat_lt
  have gap : (it.zeroEnd - it.zeroStart).toNat = b.gap := by
    rw [points.zeroEnd, points.zeroStart]
    exact formed.zeroSize
  unfold size at within
  have placed : b.Placed offset bytes.length (if early then it.current
      else it.current - (it.zeroEnd - it.zeroStart)).toNat := by
    unfold Placed Buffer.gap at *
    cases early with
    | true =>
        simp only [↓reduceIte] at place ⊢
        omega
    | false =>
        simp only [Bool.false_eq_true, ↓reduceIte, UInt32.toNat_sub] at place ⊢
        simp only [UInt32.toNat_sub] at gap
        omega
  have room : (if early then it.current else it.current - (it.zeroEnd - it.zeroStart)).toNat +
      bytes.length ≤ (mem.data it.data).size.toNat := by
    rw [points.data]
    unfold Placed blockEnd Buffer.gap at *
    omega
  refine ⟨_, { it with current := it.current + UInt32.ofNat bytes.length }, ?_, ?_, _, placed, rfl⟩
  · simp only [put, permitted, ↓reduceIte, Memory.write_spec (.inr room), Option.bind_eq_bind,
      Option.bind_some]
    rw [points.data]
    rfl
  · refine ⟨points.zeroStart, points.zeroEnd, points.dataStart, points.dataEnd, points.data, ?_⟩
    change (it.current + UInt32.ofNat bytes.length).toNat = _
    rw [UInt32.toNat_add, UInt32.toNat_ofNat']
    omega

theorem checkNoZero_spec (points : b.Points it offset) (formed : b.Formed mem) {count : UInt32}
    (within : offset + count.toNat ≤ b.size) (solid : b.Solid offset count.toNat) :
    it.checkNoZero it.current (it.current + count) = true := by
  have first := formed.start_le
  have second := formed.zero_le
  have third := formed.end_le
  have current := points.current
  have := b.endOffset.toNat_lt
  unfold size at within
  unfold Solid gap at solid
  have after : (it.current + count).toNat = b.start.toNat + offset + count.toNat := by
    rw [UInt32.toNat_add]
    omega
  simp only [checkNoZero, points.dataStart, points.dataEnd, points.zeroStart, points.zeroEnd,
    Bool.not_eq_true', Bool.or_eq_false_iff, decide_eq_false_iff_not, Bool.and_eq_false_iff,
    gt_iff_lt, UInt32.lt_iff_toNat_lt, after, current, ne_eq, Decidable.not_not]
  refine ⟨⟨by omega, by omega⟩, ?_⟩
  rcases solid with before | behind | none
  · left; left; left
    omega
  · left; left; right
    omega
  · left; right
    exact UInt32.toNat_inj.mp (by omega)

/-- A writing function that is given room off the zero area writes its bytes there. -/
def Writes (write : Memory → Iterator → Option (Memory × Iterator)) (bytes : List UInt8) : Prop :=
  ∀ {mem : Memory} {b : Buffer} {it : Iterator} {offset : ℕ}, b.Points it offset → b.Formed mem →
    offset + bytes.length ≤ b.size → b.Solid offset bytes.length →
    ∃ mem' moved, write mem it = some (mem', moved) ∧
      b.Points moved (offset + bytes.length) ∧ Wrote mem mem' b offset bytes

theorem writes_writeU8 (data : UInt8) : Writes (fun mem it => it.writeU8 mem data) [data] := by
  intro mem b it offset points formed within solid
  have first := formed.start_le
  have second := formed.zero_le
  have third := formed.end_le
  have current := points.current
  unfold Solid at solid
  simp only [List.length_singleton] at solid
  refine put_spec points formed within ?_ ?_
  · rw [List.length_singleton] at within
    unfold Buffer.size Buffer.gap at *
    simp only [check, points.dataStart, points.dataEnd, points.zeroStart, points.zeroEnd,
      Bool.and_eq_true, decide_eq_true_eq, Bool.not_eq_true', Bool.and_eq_false_iff,
      decide_eq_false_iff_not, UInt32.le_iff_toNat_le, UInt32.lt_iff_toNat_lt, current]
    omega
  · simp only [points.zeroStart, UInt32.lt_iff_toNat_lt, current, List.length_singleton,
      decide_eq_true_eq]
    split
    · omega
    · omega

theorem writes_writeU8s (data : UInt8) (len : UInt32) :
    Writes (fun mem it => it.writeU8s mem data len) (List.replicate len.toNat data) := by
  intro mem b it offset points formed within solid
  have first := formed.start_le
  have second := formed.zero_le
  have current := points.current
  rw [List.length_replicate] at within solid
  refine put_spec points formed (by rwa [List.length_replicate])
    (checkNoZero_spec points formed within solid) ?_
  unfold Solid Buffer.gap at *
  simp only [points.zeroStart, UInt32.le_iff_toNat_le, current, List.length_replicate,
    decide_eq_true_eq]
  split
  · omega
  · omega

theorem writes_writeHton {count : UInt32} {bytes : List UInt8} (length : bytes.length = count.toNat) :
    Writes (fun mem it => it.put mem (it.checkNoZero it.current (it.current + count))
      (it.current + count ≤ it.zeroStart) bytes) bytes := by
  intro mem b it offset points formed within solid
  have first := formed.start_le
  have second := formed.zero_le
  have third := formed.end_le
  have current := points.current
  have := b.endOffset.toNat_lt
  refine put_spec points formed within
    (checkNoZero_spec points formed (by omega) (by rwa [← length])) ?_
  unfold Solid Buffer.gap Buffer.size at *
  simp only [points.zeroStart, UInt32.le_iff_toNat_le, UInt32.toNat_add, current, length,
    decide_eq_true_eq] at *
  split
  · omega
  · omega

theorem writes_writeHtonU16 (data : UInt16) :
    Writes (fun mem it => it.writeHtonU16 mem data) (FISim.writeHtonU16 data) :=
  writes_writeHton (by simp)

theorem writes_writeHtonU32 (data : UInt32) :
    Writes (fun mem it => it.writeHtonU32 mem data) (FISim.writeHtonU32 data) :=
  writes_writeHton (by simp)

theorem writes_write (buffer : List UInt8) : Writes (fun mem it => it.write mem buffer) buffer := by
  intro mem b it offset points formed within solid
  have first := formed.start_le
  have second := formed.zero_le
  have third := formed.end_le
  have current := points.current
  have := b.endOffset.toNat_lt
  unfold Solid Buffer.gap at solid
  unfold Buffer.size at within
  have size : (UInt32.ofNat buffer.length).toNat = buffer.length := by
    rw [UInt32.toNat_ofNat']
    omega
  refine put_spec points formed within ?_ ?_
  · simp only [checkNoZero, points.dataStart, points.dataEnd, points.zeroStart, points.zeroEnd,
      Bool.not_eq_true', Bool.or_eq_false_iff, decide_eq_false_iff_not, Bool.and_eq_false_iff,
      gt_iff_lt, UInt32.lt_iff_toNat_lt, size, current, ne_eq, Decidable.not_not]
    refine ⟨⟨by omega, by omega⟩, ?_⟩
    rcases solid with before | behind | none
    · left; left; left
      omega
    · left; left; right
      omega
    · left; right
      exact UInt32.toNat_inj.mp (by omega)
  · unfold Buffer.gap
    simp only [points.zeroStart, UInt32.le_iff_toNat_le, current, decide_eq_true_eq]
    split
    · omega
    · omega

end Iterator

end FISim.Buffers
