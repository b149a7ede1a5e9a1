import FISim.Buffers.Writing

/-!
Bytes that go from one buffer to another: the range copy of an iterator, full
copies, and a buffer added at the end of another.
-/

namespace FISim.Buffers

open Cells

namespace Buffer

def bytesFrom (mem : Memory) (c : Buffer) (offset count : ℕ) : List UInt8 :=
  (List.range count).map fun index => c.byteAt mem (offset + index)

@[simp] theorem bytesFrom_length (mem : Memory) (c : Buffer) (offset count : ℕ) :
    (c.bytesFrom mem offset count).length = count := by
  simp [bytesFrom]

theorem bytesFrom_getElem? {mem : Memory} {c : Buffer} {offset count index : ℕ}
    (inside : index < count) :
    (c.bytesFrom mem offset count)[index]? = some (c.byteAt mem (offset + index)) := by
  simp [bytesFrom, List.getElem?_range inside]

theorem bytesFrom_add (mem : Memory) (c : Buffer) (offset first second : ℕ) :
    c.bytesFrom mem offset (first + second) =
      c.bytesFrom mem offset first ++ c.bytesFrom mem (offset + first) second := by
  unfold bytesFrom
  rw [List.range_add, List.map_append, List.map_map]
  congr 1
  refine List.map_congr_left ?_
  intro index _
  simp only [Function.comp_apply, Nat.add_assoc]

theorem bytesFrom_before {mem : Memory} {c : Buffer} {offset count : ℕ}
    (before : c.start.toNat + offset + count ≤ c.zeroAreaStart.toNat) :
    c.bytesFrom mem offset count = slice (mem.data c.data).data (c.start.toNat + offset) count := by
  unfold bytesFrom slice
  refine List.map_congr_left ?_
  intro index inside
  have := List.mem_range.mp inside
  unfold byteAt
  simp only []
  rw [if_pos (by omega), Nat.add_assoc]

theorem bytesFrom_zero {mem : Memory} {c : Buffer} {offset count : ℕ}
    (behind : c.zeroAreaStart.toNat ≤ c.start.toNat + offset)
    (before : c.start.toNat + offset + count ≤ c.zeroAreaEnd.toNat) :
    c.bytesFrom mem offset count = List.replicate count 0 := by
  rw [List.eq_replicate_iff]
  refine ⟨by simp, ?_⟩
  intro byte member
  obtain ⟨index, inside, rfl⟩ := List.mem_map.mp member
  have := List.mem_range.mp inside
  unfold byteAt
  simp only []
  rw [if_neg (by omega), if_pos (by omega)]

theorem bytesFrom_behind {mem : Memory} {c : Buffer} {offset count : ℕ}
    (zero : c.zeroAreaStart.toNat ≤ c.zeroAreaEnd.toNat)
    (behind : c.zeroAreaEnd.toNat ≤ c.start.toNat + offset) :
    c.bytesFrom mem offset count =
      slice (mem.data c.data).data (c.start.toNat + offset - c.gap) count := by
  unfold bytesFrom slice
  refine List.map_congr_left ?_
  intro index _
  unfold byteAt gap
  simp only []
  rw [if_neg (by omega), if_neg (by omega)]
  congr 1
  omega

end Buffer

namespace Iterator

open Buffer

variable {mem : Memory} {b c : Buffer} {it start stop : Iterator} {offset i j : ℕ}

theorem copy_spec {bytes : List UInt8}
    (room : bytes = [] ∨ it.current.toNat + bytes.length ≤ (mem.data it.data).size.toNat) :
    it.copy mem bytes = some (mem.modify it.data fun data =>
        { data with data := patch data.data it.current.toNat bytes },
      { it with current := it.current + UInt32.ofNat bytes.length }) := by
  simp only [copy, put, ↓reduceIte, Memory.write_spec room, Option.bind_eq_bind, Option.bind_some]
  rfl

theorem copy_append (mem : Memory) (it : Iterator) (first second : List UInt8)
    (room : first.length + second.length = 0 ∨
      it.current.toNat + (first.length + second.length) ≤ (mem.data it.data).size.toNat) :
    ∃ made moved, it.copy mem first = some (made, moved) ∧
      (∀ other, other ≠ it.data → made.data other = mem.data other) ∧
      moved.copy made second = it.copy mem (first ++ second) := by
  have := it.current.toNat_lt
  have := (mem.data it.data).size.toNat_lt
  have one : first = [] ∨
      it.current.toNat + first.length ≤ (mem.data it.data).size.toNat := by
    rw [← List.length_eq_zero_iff]
    omega
  have both : first ++ second = [] ∨
      it.current.toNat + (first ++ second).length ≤ (mem.data it.data).size.toNat := by
    rw [← List.length_eq_zero_iff, List.length_append]
    exact room
  refine ⟨_, _, copy_spec one, fun other different => Memory.modify_of_ne different _, ?_⟩
  rw [copy_spec both]
  by_cases nothing : second = []
  · subst nothing
    rw [copy_spec (.inl rfl)]
    simp [Memory.modify]
  · have some : second.length ≠ 0 := by simpa using nothing
    have after : (it.current + UInt32.ofNat first.length).toNat =
        it.current.toNat + first.length := by
      rw [UInt32.toNat_add, UInt32.toNat_ofNat']
      omega
    rw [copy_spec (.inr (by rw [after, Memory.modify_self]; simp only []; omega)), after]
    simp only [Memory.modify, Function.update_self, Function.update_idem, patch_append,
      List.length_append, UInt32.ofNat_add, UInt32.add_assoc]

theorem run_spec {size : UInt32} (limit : UInt32) {count : ℕ} (points : c.Points start i)
    (sizes : size.toNat = count) (formed : c.Formed mem) (upper : i + count ≤ c.size) :
    (start.run size limit).toNat = min count (limit.toNat - (c.start.toNat + i)) ∧
      c.Points (start.advance (start.run size limit)) (i + (start.run size limit).toNat) ∧
      (size - start.run size limit).toNat = count - (start.run size limit).toNat := by
  have startAt := points.current
  have length : (start.run size limit).toNat =
      min count (limit.toNat - (c.start.toNat + i)) := by
    unfold run
    split
    · rename_i below
      rw [UInt32.toNat_min, UInt32.toNat_sub_of_le _ _ below, sizes, startAt]
    · rename_i above
      rw [UInt32.le_iff_toNat_le] at above
      simp only [UInt32.toNat_zero]
      omega
  have endLt := c.endOffset.toNat_lt
  have first := formed.start_le
  have second := formed.zero_le
  have third := formed.end_le
  unfold Buffer.size at upper
  refine ⟨length, ⟨points.zeroStart, points.zeroEnd, points.dataStart, points.dataEnd, points.data,
    ?_⟩, ?_⟩
  · change (start.current + start.run size limit).toNat = _
    rw [UInt32.toNat_add]
    omega
  · rw [UInt32.toNat_sub_of_le _ _ (by rw [UInt32.le_iff_toNat_le]; omega), sizes]

theorem rest_spec {size : UInt32} {count : ℕ} (points : c.Points start i)
    (sizes : size.toNat = count) (formed : c.Formed mem) (upper : i + count ≤ c.size) :
    (min size (start.dataEnd - start.current)).toNat = count := by
  have startAt := points.current
  have endLt := c.endOffset.toNat_lt
  have first := formed.start_le
  have second := formed.zero_le
  have third := formed.end_le
  unfold Buffer.size at upper
  rw [UInt32.toNat_min, sizes, points.dataEnd, UInt32.toNat_sub, startAt]
  omega

theorem bytes_before (mem : Memory) {count : ℕ} (points : c.Points start i)
    (short : count ≤ c.zeroAreaStart.toNat - (c.start.toNat + i)) :
    slice (mem.data start.data).data start.current.toNat count = c.bytesFrom mem i count := by
  by_cases none : count = 0
  · rw [none]
    rfl
  · rw [points.data, points.current, bytesFrom_before (by omega)]

theorem bytes_zero (mem : Memory) {count : ℕ} (behind : count = 0 ∨ c.zeroAreaStart.toNat ≤ c.start.toNat + i)
    (short : count ≤ c.zeroAreaEnd.toNat - (c.start.toNat + i)) :
    List.replicate count 0 = c.bytesFrom mem i count := by
  by_cases none : count = 0
  · rw [none]
    rfl
  · rw [bytesFrom_zero (by omega) (by omega)]

theorem bytes_behind {count : ℕ} (points : c.Points start i) (formed : c.Formed mem)
    (behind : count = 0 ∨ c.zeroAreaEnd.toNat ≤ c.start.toNat + i) :
    slice (mem.data start.data).data (start.current - (start.zeroEnd - start.zeroStart)).toNat
      count = c.bytesFrom mem i count := by
  by_cases none : count = 0
  · rw [none]
    rfl
  · have gap : (start.zeroEnd - start.zeroStart).toNat = c.gap := by
      rw [points.zeroEnd, points.zeroStart]
      exact formed.zeroSize
    have current := points.current
    rw [bytesFrom_behind formed.zero_le (by omega), points.data, UInt32.toNat_sub_of_le _ _
      (by rw [UInt32.le_iff_toNat_le, gap]; unfold Buffer.gap; omega), gap, points.current]

theorem read_spec {address index count : ℕ}
    (inside : count = 0 ∨ index + count ≤ (mem.data address).size.toNat) :
    mem.read address index count = some (slice (mem.data address).data index count) := if_pos inside

theorem runs_spec {size : UInt32} {count : ℕ} (points : c.Points start i)
    (sizes : size.toNat = count) (formed : c.Formed mem) (upper : i + count ≤ c.size)
    {toCopy₁ toCopy₂ toCopy₃ : UInt32} {start₁ start₂ : Iterator}
    (is₁ : toCopy₁ = start.run size start.zeroStart) (at₁ : start₁ = start.advance toCopy₁)
    (is₂ : toCopy₂ = start₁.run (size - toCopy₁) start₁.zeroEnd)
    (at₂ : start₂ = start₁.advance toCopy₂)
    (is₃ : toCopy₃ = min (size - toCopy₁ - toCopy₂) (start₂.dataEnd - start₂.current)) :
    ∃ first second third,
      mem.read start.data start.current.toNat toCopy₁.toNat = some first ∧
      List.replicate toCopy₂.toNat 0 = second ∧
      (∀ mem' : Memory, mem'.data c.data = mem.data c.data →
        mem'.read start₂.data (start₂.current - (start₂.zeroEnd - start₂.zeroStart)).toNat
          toCopy₃.toNat = some third) ∧
      c.bytesFrom mem i count = first ++ second ++ third := by
  obtain ⟨run₁, points₁, left₁⟩ := run_spec start.zeroStart points sizes formed upper
  rw [← is₁, ← at₁] at points₁
  rw [← is₁] at run₁ left₁
  obtain ⟨run₂, points₂, left₂⟩ := run_spec start₁.zeroEnd points₁ left₁ formed (by omega)
  rw [← is₂, ← at₂] at points₂
  rw [← is₂] at run₂ left₂
  have run₃ := rest_spec points₂ left₂ formed (by omega)
  rw [← is₃] at run₃
  rw [points.zeroStart] at run₁
  rw [points₁.zeroEnd] at run₂
  have startLe := formed.start_le
  have zeroLe := formed.zero_le
  have endLe := formed.end_le
  have inside := formed.inside
  have startAt := points.current
  have startAt₂ := points₂.current
  have gap : (start₂.zeroEnd - start₂.zeroStart).toNat = c.gap := by
    rw [points₂.zeroEnd, points₂.zeroStart]
    exact formed.zeroSize
  unfold blockEnd at inside
  unfold Buffer.size at upper
  refine ⟨_, _, c.bytesFrom mem (i + toCopy₁.toNat + toCopy₂.toNat) toCopy₃.toNat,
    read_spec ?_, rfl, ?_, ?_⟩
  · rw [startAt, points.data]
    unfold Buffer.gap at inside
    omega
  · intro mem' same
    rw [← bytes_behind points₂ formed (by unfold Buffer.gap at *; omega), points₂.data, ← same]
    refine read_spec ?_
    rw [same]
    by_cases none : toCopy₃.toNat = 0
    · exact .inl none
    · right
      rw [UInt32.toNat_sub_of_le _ _ (by
        rw [UInt32.le_iff_toNat_le, gap]
        unfold Buffer.gap
        omega), gap]
      unfold Buffer.gap at *
      omega
  · rw [bytes_before mem points (by omega), bytes_zero mem (c := c) (i := i + toCopy₁.toNat)
      (by omega) (by omega), ← bytesFrom_add, Nat.add_assoc i, ← bytesFrom_add]
    congr 1
    omega

/-- A range of another block is copied as its buffer shows it.  The place in this block is taken
for the offset itself, which it is before the zero area or where there is none. -/
theorem writeRange_spec (points : b.Points it offset) (formed : b.Formed mem)
    (first : c.Points start i) (last : c.Points stop j) (formedC : c.Formed mem)
    (apart : b.data ≠ c.data) (order : i ≤ j) (upper : j ≤ c.size)
    (within : offset + (j - i) ≤ b.size) (solid : b.Solid offset (j - i))
    (direct : i = j ∨ b.start.toNat + offset + (j - i) ≤ b.zeroAreaStart.toNat ∨ b.gap = 0) :
    ∃ mem' moved, it.writeRange mem start stop = some (mem', moved) ∧
      b.Points moved (offset + (j - i)) ∧ Wrote mem mem' b offset (c.bytesFrom mem i (j - i)) := by
  have startAt := first.current
  have stopAt := last.current
  have sizes : (stop.current - start.current).toNat = j - i := by
    have := stop.current.toNat_lt
    simp only [UInt32.toNat_sub]
    omega
  have distinct : it.data ≠ start.data := by
    rw [points.data, first.data]
    exact apart
  have alike : start.data = stop.data ∧ start.current ≤ stop.current ∧
      start.zeroStart = stop.zeroStart ∧ start.zeroEnd = stop.zeroEnd ∧ it.data ≠ start.data := by
    refine ⟨first.data.trans last.data.symm, ?_, first.zeroStart.trans last.zeroStart.symm,
      first.zeroEnd.trans last.zeroEnd.symm, distinct⟩
    rw [UInt32.le_iff_toNat_le]
    omega
  have checked : it.checkNoZero it.current (it.current + (stop.current - start.current)) = true :=
    checkNoZero_spec points formed (by omega) (by rwa [sizes])
  have room : j - i = 0 ∨ it.current.toNat + (j - i) ≤ (mem.data it.data).size.toNat := by
    have startLe := formed.start_le
    have zeroLe := formed.zero_le
    have endLe := formed.end_le
    have inside := formed.inside
    rw [points.current, points.data]
    unfold blockEnd gap at *
    unfold Buffer.size at within
    omega
  obtain ⟨list₁, list₂, list₃, read₁, zero₂, read₃, whole⟩ := runs_spec first sizes formedC
    (by omega) rfl rfl rfl rfl rfl
  have length := congrArg List.length whole
  rw [bytesFrom_length, List.length_append, List.length_append] at length
  obtain ⟨made₁, moved₁, copied₁, -, joined₁⟩ := copy_append mem it list₁ list₂
    (by omega)
  obtain ⟨made₂, moved₂, copied₂, kept, joined₂⟩ := copy_append mem it
    (list₁ ++ list₂) list₃ (by rw [List.length_append]; omega)
  have read := read₃ made₂ (kept c.data (by rw [points.data]; exact Ne.symm apart))
  have ran : it.writeRange mem start stop = it.copy mem (list₁ ++ list₂ ++ list₃) := by
    unfold writeRange
    simp only [guard, if_pos alike, checked, ↓reduceIte, Option.pure_def, Option.bind_eq_bind,
      Option.bind_some, read₁, copied₁, zero₂, joined₁, copied₂, read, joined₂]
  refine ⟨_, _, ran.trans (copy_spec ?_), ?_, ?_⟩
  · rw [← List.length_eq_zero_iff]
    simp only [List.length_append]
    omega
  · rw [← whole, bytesFrom_length]
    exact points.advance formed within
  · rw [← whole, points.data, points.current]
    rcases direct with rfl | direct
    · have place : ∃ cell, b.Placed offset 0 cell := by
        have startLe := formed.start_le
        have zeroLe := formed.zero_le
        unfold Solid at solid
        unfold Placed gap at *
        rcases solid with before | behind | none
        · exact ⟨_, .inl ⟨rfl, .inl (by omega)⟩⟩
        · exact ⟨b.start.toNat + offset - (b.zeroAreaEnd.toNat - b.zeroAreaStart.toNat),
            .inr ⟨by omega, behind⟩⟩
        · exact ⟨_, .inl ⟨rfl, .inr none⟩⟩
      obtain ⟨cell, place⟩ := place
      have nothing : c.bytesFrom mem i (i - i) = [] := by
        rw [← List.length_eq_zero_iff]
        simp
      rw [nothing]
      exact ⟨cell, place, by simp only [patch_nil]⟩
    · refine ⟨_, .inl ⟨rfl, ?_⟩, rfl⟩
      rw [bytesFrom_length]
      exact direct

end Iterator

def Memory.newStart (mem : Memory) : UInt32 :=
  match mem.create 0 with
  | none => 0
  | some (mem, data) => min (mem.data data).size mem.recommendedStart

namespace Buffer

variable {mem mem' : Memory} {b c : Buffer} {live others : List Buffer} {pinned : List ℕ}

/-- A new buffer: all of it is zero area, in a block of its own. -/
structure Fresh (mem mem' : Memory) (b : Buffer) (live : List Buffer) (pinned : List ℕ)
    (count : ℕ) : Prop where
  holds : mem'.Holds (b :: live) pinned
  kept : ∀ c ∈ live, c.Kept mem mem'
  apart : ∀ c ∈ live, c.data ≠ b.data
  start : b.start = mem.newStart
  zeroAreaStart : b.zeroAreaStart = b.start
  zeroAreaEnd : b.zeroAreaEnd = b.endOffset
  endOffset : b.endOffset.toNat = b.start.toNat + count

theorem Fresh.size {count : ℕ} (fresh : Fresh mem mem' b live pinned count) : b.size = count := by
  unfold Buffer.size
  rw [fresh.endOffset, Nat.add_sub_cancel_left]

theorem Fresh.gap {count : ℕ} (fresh : Fresh mem mem' b live pinned count) : b.gap = count := by
  unfold Buffer.gap
  rw [fresh.zeroAreaEnd, fresh.zeroAreaStart, fresh.endOffset, Nat.add_sub_cancel_left]

theorem Fresh.byteAt {count index : ℕ} (fresh : Fresh mem mem' b live pinned count)
    (inside : index < count) : b.byteAt mem' index = 0 := by
  unfold Buffer.byteAt
  simp only []
  rw [fresh.zeroAreaEnd, fresh.zeroAreaStart, fresh.endOffset, if_neg (by omega),
    if_pos (by omega)]

theorem initializeData_spec (zeroSize : UInt32) (holds : mem.Holds live pinned)
    (fits : mem.newStart.toNat + zeroSize.toNat < 2 ^ 32) :
    ∃ mem' b, initializeData mem zeroSize = some (mem', b) ∧
      Fresh mem mem' b live pinned zeroSize.toNat := by
  obtain ⟨made, address, created, pinnedHolds, unused, once, same, -⟩ :=
    holds.create 0 (by decide)
  have begins : mem.newStart = min (made.data address).size made.recommendedStart := by
    rw [Memory.newStart, created]
  let fresh : Buffer := {
    data := address
    maxZeroAreaStart := mem.newStart
    zeroAreaStart := mem.newStart
    zeroAreaEnd := mem.newStart + zeroSize
    start := mem.newStart
    endOffset := mem.newStart + zeroSize }
  have last : fresh.endOffset.toNat = mem.newStart.toNat + zeroSize.toNat := by
    change (mem.newStart + zeroSize).toNat = _
    rw [UInt32.toNat_add]
    omega
  have reach : fresh.blockEnd = mem.newStart.toNat := by
    unfold Buffer.blockEnd Buffer.gap
    change fresh.endOffset.toNat - (fresh.endOffset.toNat - mem.newStart.toNat) = _
    omega
  have adopted := pinnedHolds.adopt (b := fresh) once (Nat.le_refl _)
    (by change mem.newStart.toNat ≤ fresh.endOffset.toNat; omega) (Nat.le_refl _)
    (by
      change _ ≤ (made.data address).size.toNat
      rw [reach, begins, UInt32.toNat_min]
      omega)
  refine ⟨_, fresh, ?_, adopted, ?_, ?_, rfl, rfl, rfl, last⟩
  · simp only [initializeData, created, Option.bind_eq_bind, Option.bind_some, ← begins]
    rfl
  · intro c member
    have other := holds.elsewhere unused member
    refine Kept.of_eq ?_
    rw [Memory.setDirtyEnd, Memory.modify_of_ne other, Memory.setDirtyStart,
      Memory.modify_of_ne other, same c.data other]
  · intro c member
    exact holds.elsewhere unused member

theorem shows_bytesFrom (mem : Memory) (b : Buffer) :
    b.Shows mem ((b.bytesFrom mem 0 b.size).map some) := by
  refine ⟨by simp, ?_⟩
  intro index byte known
  rw [List.getElem?_map, Option.map_eq_some_iff] at known
  obtain ⟨found, taken, same⟩ := known
  have inside : index < b.size := by
    simpa using (List.getElem?_eq_some_iff.mp taken).1
  rw [bytesFrom_getElem? inside, Nat.zero_add] at taken
  rw [← Option.some.inj same, ← Option.some.inj taken]

theorem Shows.of_bytesFrom {full : Buffer}
    (shows : full.Shows mem' ((b.bytesFrom mem 0 b.size).map some))
    {string : List (Option UInt8)} (shown : b.Shows mem string) : full.Shows mem' string := by
  refine shown.same (by simpa using shows.1) ?_
  intro index inside
  refine shows.2 index _ ?_
  rw [List.getElem?_map, bytesFrom_getElem? inside, Nat.zero_add]
  rfl

theorem readFrom (index : ℕ) {count : ℕ} (kept : b.Kept mem mem')
    (formed' : b.Formed mem') (lower : b.start.toNat ≤ index) (upper : index + count ≤ b.blockEnd) :
    mem'.read b.data index count = some (slice (mem.data b.data).data index count) := by
  have inside := formed'.inside
  rw [Memory.read, if_pos (.inr (by omega))]
  congr 1
  refine List.map_congr_left ?_
  intro offset member
  have := List.mem_range.mp member
  exact kept _ (by omega) (by omega)

/-- A buffer on its way to being a full copy: nothing of it is in a zero area, and it ends where
it started out or where its size says. -/
structure Copied (mem mem' : Memory) (t : Buffer) (live : List Buffer) (pinned : List ℕ)
    (string : List UInt8) : Prop where
  holds : mem'.Holds (t :: live) pinned
  kept : ∀ c ∈ live, c.Kept mem mem'
  shows : t.Shows mem' (string.map some)
  apart : ∀ c ∈ live, c.data ≠ t.data
  gap : t.gap = 0
  reach : t.endOffset = mem.newStart ∨ t.endOffset.toNat = t.size

theorem Copied.size {t : Buffer} {string : List UInt8}
    (copied : Copied mem mem' t live pinned string) : t.size = string.length := by
  rw [copied.shows.1, List.length_map]

theorem Copied.getInternalSize {t : Buffer} {string : List UInt8}
    (copied : Copied mem mem' t live pinned string) :
    t.getInternalSize.toNat = string.length := by
  rw [(copied.holds.formed t List.mem_cons_self).getInternalSize, ← copied.size]
  unfold Buffer.blockEnd Buffer.size
  rw [copied.gap]
  rfl

theorem Fresh.copied {t : Buffer} (fresh : Fresh mem mem' t live pinned 0) :
    Copied mem mem' t live pinned [] where
  holds := fresh.holds
  kept := fresh.kept
  shows := ⟨fresh.size, by simp⟩
  apart := fresh.apart
  gap := fresh.gap
  reach := .inl (UInt32.toNat_inj.mp (by rw [fresh.endOffset, fresh.start]; rfl))

theorem Copied.prepend {t : Buffer} {string : List UInt8}
    (copied : Copied mem mem' t live pinned string) (count : UInt32)
    (fits : string.length + count.toNat + 19 < 2 ^ 32) :
    ∃ m made, t.addAtStart mem' count = some (m, made) ∧
      (∀ c ∈ live, c.Kept mem m ∧ c.Formed m) ∧
      ∀ write bytes, Iterator.Writes write bytes → bytes.length = count.toNat →
        ∃ written moved, write m made.atBegin = some (written, moved) ∧
          Copied mem written made live pinned (bytes ++ string) := by
  have size := copied.size
  have inner := copied.getInternalSize
  obtain ⟨m, made, added, grown, settled⟩ := addAtStart_spec count copied.holds
    (.inr ⟨by omega, by omega⟩)
  have formed := grown.holds.formed made List.mem_cons_self
  have gap : made.gap = 0 := by rw [grown.gap, copied.gap]
  have larger := grown.size
  refine ⟨m, made, added, ?_, ?_⟩
  · intro c member
    exact ⟨(copied.kept c member).trans (grown.kept c member),
      grown.holds.formed c (List.mem_cons_of_mem _ member)⟩
  · intro write bytes writes length
    obtain ⟨written, moved, ran, -, wrote⟩ := writes made.points_atBegin formed (by omega)
      (.inr (.inr gap))
    obtain ⟨holds, kept, shows⟩ := grown.wroteFront copied.shows wrote length
      (matches_map bytes)
    refine ⟨written, moved, ran, holds, ?_, by rwa [List.map_append],
      settled.apart copied.apart, gap, ?_⟩
    · intro c member
      exact (copied.kept c member).trans (kept c member)
    · rcases grown.reach with same | whole
      · rcases copied.reach with first | before
        · exact .inl ((UInt32.toNat_inj.mp (by simpa using same)).trans first)
        · right
          have below : made.size ≤ made.endOffset.toNat := Nat.sub_le _ _
          omega
      · exact .inr whole

/-- A buffer that shows the same, with nothing of it in a zero area. -/
structure FullCopy (mem mem' : Memory) (b full : Buffer) (live : List Buffer) (pinned : List ℕ) :
    Prop where
  holds : mem'.Holds (full :: live) pinned
  kept : ∀ c ∈ live, c.Kept mem mem'
  shows : ∀ string, b.Shows mem string → full.Shows mem' string
  gap : full.gap = 0

theorem createFullCopy_spec (holds : mem.Holds live pinned) (member : b ∈ live)
    (zero : b.zeroSize ≠ 0) (fits : b.size + 19 < 2 ^ 32)
    (begins : mem.newStart.toNat + (b.endOffset.toNat - b.zeroAreaEnd.toNat) < 2 ^ 32) :
    ∃ mem' full, b.createFullCopy mem = some (mem', full) ∧
      FullCopy mem mem' b full live pinned ∧ (∀ c ∈ live, c.data ≠ full.data) ∧
      full.endOffset.toNat ≤ mem.newStart.toNat + b.size := by
  have formed := holds.formed b member
  have startLe := formed.start_le
  have zeroLe := formed.zero_le
  have endLe := formed.end_le
  have zeroLength := formed.zeroSize
  have newStartLt := mem.newStart.toNat_lt
  have front : (b.zeroAreaStart - b.start).toNat = b.zeroAreaStart.toNat - b.start.toNat := by
    rw [UInt32.toNat_sub_of_le _ _ (UInt32.le_iff_toNat_le.mpr startLe)]
  have back : (b.endOffset - b.zeroAreaEnd).toNat = b.endOffset.toNat - b.zeroAreaEnd.toNat := by
    rw [UInt32.toNat_sub_of_le _ _ (UInt32.le_iff_toNat_le.mpr endLe)]
  unfold Buffer.size at fits
  unfold Buffer.gap at zeroLength
  obtain ⟨mem₁, tmp₁, made, fresh⟩ := initializeData_spec 0 holds
    (by rw [UInt32.toNat_zero]; omega)
  -- the bytes of the zero area
  obtain ⟨mem₂, tmp₂, added₁, -, filled⟩ := fresh.copied.prepend b.zeroSize
    (by rw [List.length_nil]; omega)
  obtain ⟨mem₃, moved₁, written₁, zeros⟩ := filled _ _ (Iterator.writes_writeU8s 0 b.zeroSize)
    (by simp)
  -- the bytes before it
  obtain ⟨mem₄, tmp₄, added₂, ready, filled⟩ := zeros.prepend (b.zeroAreaStart - b.start)
    (by simp only [List.length_append, List.length_replicate, List.length_nil]; omega)
  have read₁ := readFrom _ (ready b member).1 (ready b member).2 (Nat.le_refl _)
    (show b.start.toNat + (b.zeroAreaStart - b.start).toNat ≤ b.blockEnd by
      unfold Buffer.blockEnd Buffer.gap
      omega)
  obtain ⟨mem₅, moved₂, written₂, early⟩ := filled _ _ (Iterator.writes_write
    (slice (mem.data b.data).data b.start.toNat (b.zeroAreaStart - b.start).toNat)) (by simp)
  -- the bytes behind it
  have size := early.size
  have inner := early.getInternalSize
  simp only [List.length_append, List.length_replicate, List.length_nil, slice_length] at size inner
  have fits₅ : tmp₄.FitsAtEnd mem₅ (b.endOffset - b.zeroAreaEnd) := by
    unfold FitsAtEnd
    split
    · rcases early.reach with first | whole
      · rw [first]
        omega
      · omega
    · exact ⟨by omega, by omega⟩
  obtain ⟨mem₆, tmp₆, added₃, grown, settled⟩ := addAtEnd_spec _ early.holds fits₅
  have formed₆ := grown.holds.formed tmp₆ List.mem_cons_self
  have size₆ := grown.size
  have gap₆ : tmp₆.gap = 0 := by rw [grown.gap, early.gap]
  obtain ⟨i, before, at₆⟩ := (points_atEnd formed₆).prev (b.endOffset - b.zeroAreaEnd)
    (by omega)
  have read₂ := readFrom b.zeroAreaStart.toNat ((early.kept b member).trans
    (grown.kept b member)) (grown.holds.formed b (List.mem_cons_of_mem _ member)) startLe
    (show b.zeroAreaStart.toNat + (b.endOffset - b.zeroAreaEnd).toNat ≤ b.blockEnd by
      unfold Buffer.blockEnd Buffer.gap
      omega)
  have place : tmp₆.size - (b.endOffset - b.zeroAreaEnd).toNat = tmp₄.size := by omega
  rw [place] at at₆
  obtain ⟨mem₇, moved₃, written₃, -, wrote⟩ := Iterator.writes_write
    (slice (mem.data b.data).data b.zeroAreaStart.toNat (b.endOffset - b.zeroAreaEnd).toNat)
    at₆ formed₆ (by rw [slice_length]; omega) (.inr (.inr gap₆))
  obtain ⟨holds₇, kept₇, shows₇⟩ := grown.wroteBack early.shows wrote (by simp)
    (matches_map _)
  have ran : b.createFullCopy mem = some (mem₇, tmp₆) := by
    unfold createFullCopy
    simp only [if_pos zero, made, Option.bind_eq_bind, Option.bind_some, added₁, written₁, added₂,
      read₁, written₂, added₃, before, read₂, written₃]
    rfl
  have whole : b.bytesFrom mem 0 b.size =
      slice (mem.data b.data).data b.start.toNat (b.zeroAreaStart - b.start).toNat ++
        (List.replicate b.zeroSize.toNat 0 ++ []) ++
          slice (mem.data b.data).data b.zeroAreaStart.toNat (b.endOffset - b.zeroAreaEnd).toNat := by
    have split : b.size = (b.zeroAreaStart - b.start).toNat + b.zeroSize.toNat +
        (b.endOffset - b.zeroAreaEnd).toNat := by
      unfold Buffer.size
      omega
    rw [split, bytesFrom_add, bytesFrom_add, bytesFrom_before (by omega),
      bytesFrom_zero (by omega) (by omega), bytesFrom_behind zeroLe (by omega), List.append_nil,
      Nat.zero_add, Nat.add_zero]
    congr 2
    unfold Buffer.gap
    omega
  refine ⟨mem₇, tmp₆, ran, ⟨holds₇, ?_, ?_, gap₆⟩, settled.apart early.apart, ?_⟩
  · intro c inside
    exact (early.kept c inside).trans (kept₇ c inside)
  · intro string shown
    rw [← List.map_append, ← whole] at shows₇
    exact shows₇.of_bytesFrom shown
  · unfold Buffer.size at *
    rcases grown.reach with further | whole
    · rcases early.reach with first | whole
      · have := congrArg UInt32.toNat first
        omega
      · unfold Buffer.size at *
        omega
    · unfold Buffer.size at *
      omega

end Buffer

end FISim.Buffers
