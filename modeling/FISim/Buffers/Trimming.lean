import FISim.Buffers.Copying

/-!
Operations that share or give up bytes and write none: copies, assignments,
removals and fragments.
-/

namespace FISim.Buffers

open Cells

namespace Memory

variable {mem : Memory} {b o : Buffer} {live others : List Buffer} {pinned : List ℕ}

theorem share_bytes (mem : Memory) (address other : ℕ) :
    ((mem.share address).data other).data = (mem.data other).data := by
  by_cases here : other = address
  · rw [here]
    simp [Memory.share]
  · rw [Memory.share, modify_of_ne here]

theorem Holds.copy (holds : mem.Holds live pinned) (member : o ∈ live) :
    (o.copy mem).1.Holds ((o.copy mem).2 :: live) pinned := by
  have formed := holds.formed o member
  exact holds.share member rfl ⟨formed.start_le, formed.zero_le, formed.end_le, formed.inside,
    formed.dirtyStart_le, formed.le_dirtyEnd⟩ rfl rfl

theorem Holds.exchange (holds : mem.Holds (b :: others) pinned) (member : o ∈ others)
    (same : b.data = o.data) : mem.Holds (o :: others) pinned := by
  have known : ∀ c ∈ o :: others, c ∈ b :: others := by
    intro c inside
    rcases List.mem_cons.mp inside with rfl | old
    · exact List.mem_cons_of_mem _ member
    · exact List.mem_cons_of_mem _ old
  exact {
    formed := fun c inside => holds.formed c (known c inside)
    counted := fun address => by
      rw [holds.counted, List.countP_cons, List.countP_cons, same]
    leading := fun c first d second => holds.leading c (known c first) d (known d second)
    allocated := holds.allocated
    free := holds.free
    freeNodup := holds.freeNodup }

theorem Holds.assign (holds : mem.Holds (b :: others) pinned) (member : o ∈ others) :
    (b.assign mem o).1.Holds (o :: others) pinned ∧
      ∀ c : Buffer, c.Kept mem (b.assign mem o).1 := by
  unfold Buffer.assign
  by_cases same : b.data = o.data
  · simp only [ne_eq, same, not_true_eq_false, ↓reduceIte]
    exact ⟨(holds.exchange member same).recommend _, fun c => .of_eq rfl⟩
  · simp only [ne_eq, same, not_false_eq_true, ↓reduceIte]
    have released := holds.release
    refine ⟨(released.share member rfl (released.formed o member) rfl rfl).recommend _, ?_⟩
    intro c
    refine .of_eq ?_
    change (((mem.release b.data).share o.data).data c.data).data = _
    rw [share_bytes, release_bytes]

theorem Holds.destroy (holds : mem.Holds (b :: others) pinned) :
    (b.destroy mem).Holds others pinned ∧ ∀ c : Buffer, c.Kept mem (b.destroy mem) := by
  refine ⟨(holds.recommend _).release, ?_⟩
  intro c
  refine .of_eq ?_
  unfold Buffer.destroy
  rw [release_bytes]
  rfl

end Memory

namespace Buffer

variable {mem mem' : Memory} {b c : Buffer} {live others : List Buffer} {pinned : List ℕ}
  {string : List (Option UInt8)}

theorem copy_shows (shows : b.Shows mem string) : (b.copy mem).2.Shows (b.copy mem).1 string := by
  refine shows.same rfl ?_
  intro index _
  change b.byteAt (mem.share b.data) index = b.byteAt mem index
  exact byteAt_congr (Memory.share_bytes mem b.data b.data) index

theorem copy_kept (mem : Memory) (b c : Buffer) : c.Kept mem (b.copy mem).1 :=
  .of_eq (Memory.share_bytes mem b.data c.data)

/-- A buffer that has given up bytes at its start or its end. -/
structure Trimmed (mem : Memory) (b c : Buffer) : Prop where
  data : c.data = b.data
  formed : c.Formed mem
  ends : c.blockEnd ≤ b.blockEnd
  leads : c.endOffset = (mem.data b.data).dirtyEnd →
    b.endOffset = (mem.data b.data).dirtyEnd ∧ b.blockEnd = c.blockEnd

theorem Trimmed.holds (trimmed : Trimmed mem b c) (holds : mem.Holds (b :: others) pinned) :
    mem.Holds (c :: others) pinned :=
  holds.shrink trimmed.data trimmed.formed trimmed.ends trimmed.leads

theorem trimmed_of (formed : b.Formed mem) (data : c.data = b.data)
    (start_le : c.start.toNat ≤ c.zeroAreaStart.toNat)
    (zero_le : c.zeroAreaStart.toNat ≤ c.zeroAreaEnd.toNat)
    (end_le : c.zeroAreaEnd.toNat ≤ c.endOffset.toNat) (lower : b.start.toNat ≤ c.start.toNat)
    (upper : c.endOffset.toNat ≤ b.endOffset.toNat) (ends : c.blockEnd ≤ b.blockEnd)
    (same : c.endOffset.toNat = b.endOffset.toNat → b.blockEnd = c.blockEnd) :
    Trimmed mem b c where
  data := data
  formed := by
    refine ⟨start_le, zero_le, end_le, ?_, ?_, ?_⟩
    · rw [data]
      exact ends.trans formed.inside
    · rw [data]
      exact formed.dirtyStart_le.trans lower
    · rw [data]
      exact upper.trans formed.le_dirtyEnd
  ends := ends
  leads reached := by
    have whole := formed.le_dirtyEnd
    have level : c.endOffset.toNat = b.endOffset.toNat := by
      rw [reached] at upper ⊢
      omega
    exact ⟨(UInt32.toNat_inj.mp level).symm.trans reached, same level⟩

theorem byteAt_eq (mem : Memory) (b c : Buffer) (data : c.data = b.data) {index other : ℕ}
    (front : c.start.toNat + index < c.zeroAreaStart.toNat →
      b.start.toNat + other < b.zeroAreaStart.toNat ∧
        c.start.toNat + index = b.start.toNat + other)
    (zero : c.zeroAreaStart.toNat ≤ c.start.toNat + index →
      c.start.toNat + index < c.zeroAreaEnd.toNat →
        b.zeroAreaStart.toNat ≤ b.start.toNat + other ∧
        b.start.toNat + other < b.zeroAreaEnd.toNat)
    (back : c.zeroAreaStart.toNat ≤ c.start.toNat + index →
      c.zeroAreaEnd.toNat ≤ c.start.toNat + index →
        b.zeroAreaStart.toNat ≤ b.start.toNat + other ∧
        b.zeroAreaEnd.toNat ≤ b.start.toNat + other ∧
        c.start.toNat + index - (c.zeroAreaEnd.toNat - c.zeroAreaStart.toNat) =
          b.start.toNat + other - (b.zeroAreaEnd.toNat - b.zeroAreaStart.toNat)) :
    c.byteAt mem index = b.byteAt mem other := by
  unfold byteAt Buffer.gap
  simp only [data]
  by_cases before : c.start.toNat + index < c.zeroAreaStart.toNat
  · obtain ⟨inFront, same⟩ := front before
    rw [if_pos before, if_pos inFront, same]
  · have behind := Nat.le_of_not_lt before
    rw [if_neg before]
    by_cases within : c.start.toNat + index < c.zeroAreaEnd.toNat
    · obtain ⟨past, short⟩ := zero behind within
      rw [if_pos within, if_neg (Nat.not_lt.mpr past), if_pos short]
    · obtain ⟨past, beyond, same⟩ := back behind (Nat.le_of_not_lt within)
      rw [if_neg within, if_neg (Nat.not_lt.mpr past), if_neg (Nat.not_lt.mpr beyond), same]

theorem dropped_of (formed : b.Formed mem) (data : c.data = b.data) {count : ℕ}
    (offsets : (b.start.toNat + count ≤ b.zeroAreaStart.toNat ∧
        c.start.toNat = b.start.toNat + count ∧ c.zeroAreaStart.toNat = b.zeroAreaStart.toNat ∧
        c.zeroAreaEnd.toNat = b.zeroAreaEnd.toNat ∧ c.endOffset.toNat = b.endOffset.toNat) ∨
      (b.zeroAreaStart.toNat < b.start.toNat + count ∧
        b.start.toNat + count ≤ b.zeroAreaEnd.toNat ∧
        c.start.toNat = b.zeroAreaStart.toNat ∧ c.zeroAreaStart.toNat = b.zeroAreaStart.toNat ∧
        c.zeroAreaEnd.toNat + (b.start.toNat + count) =
          b.zeroAreaEnd.toNat + b.zeroAreaStart.toNat ∧
        c.endOffset.toNat + (b.start.toNat + count) =
          b.endOffset.toNat + b.zeroAreaStart.toNat) ∨
      (b.zeroAreaEnd.toNat < b.start.toNat + count ∧
        c.start.toNat = min (b.start.toNat + count) b.endOffset.toNat - b.gap ∧
        c.zeroAreaStart.toNat = c.start.toNat ∧ c.zeroAreaEnd.toNat = c.start.toNat ∧
        c.endOffset.toNat = b.endOffset.toNat - b.gap)) :
    Trimmed mem b c ∧ c.size = b.size - count ∧
      ∀ index < c.size, c.byteAt mem index = b.byteAt mem (count + index) := by
  have first := formed.start_le
  have second := formed.zero_le
  have third := formed.end_le
  unfold Buffer.gap at offsets
  refine ⟨trimmed_of formed data ?_ ?_ ?_ ?_ ?_ ?_ ?_, ?_, ?_⟩
  · omega
  · omega
  · omega
  · omega
  · omega
  · unfold blockEnd Buffer.gap
    omega
  · unfold blockEnd Buffer.gap
    omega
  · unfold size
    omega
  · intro index inside
    unfold size at inside
    refine byteAt_eq mem b c data ?_ ?_ ?_
    · omega
    · omega
    · omega

theorem removeAtStart_spec (start : UInt32) (formed : b.Formed mem)
    (fits : b.start.toNat + start.toNat < 2 ^ 32) :
    Trimmed mem b (b.removeAtStart start) ∧
      (b.removeAtStart start).size = b.size - start.toNat ∧
      ∀ index < (b.removeAtStart start).size,
        (b.removeAtStart start).byteAt mem index = b.byteAt mem (start.toNat + index) := by
  have first := formed.start_le
  have second := formed.zero_le
  have third := formed.end_le
  have endLt := b.endOffset.toNat_lt
  have newStart : (b.start + start).toNat = b.start.toNat + start.toNat := by
    rw [UInt32.toNat_add]
    omega
  have zeroLength := formed.zeroSize
  have inner := formed.getInternalEnd
  unfold removeAtStart
  simp only [UInt32.le_iff_toNat_le, newStart]
  split
  · refine dropped_of formed ?_ (.inl ?_)
    · rfl
    · simp only [noteZeroArea, newStart, and_self, and_true]
      omega
  · split
    · have less : (b.start + start - b.zeroAreaStart).toNat =
          b.start.toNat + start.toNat - b.zeroAreaStart.toNat := by
        rw [UInt32.toNat_sub, newStart]
        omega
      refine dropped_of formed ?_ (.inr (.inl ?_))
      · rfl
      · simp only [noteZeroArea, UInt32.toNat_sub b.zeroAreaEnd, UInt32.toNat_sub b.endOffset, less,
          true_and]
        omega
    · have cut : b.getInternalEnd.toNat = b.endOffset.toNat - b.gap := inner
      have last : (b.endOffset - b.zeroSize).toNat = b.endOffset.toNat - b.gap := inner
      split
      · refine dropped_of formed ?_ (.inr (.inr ?_))
        · rfl
        · simp only [noteZeroArea, last, UInt32.toNat_sub (b.start + start), newStart, zeroLength,
            and_true]
          unfold Buffer.gap
          omega
      · refine dropped_of formed ?_ (.inr (.inr ?_))
        · rfl
        · simp only [noteZeroArea, cut, and_true]
          unfold Buffer.gap
          omega

theorem cut_of (formed : b.Formed mem) (data : c.data = b.data) {count : ℕ}
    (start : c.start.toNat = b.start.toNat)
    (endOffset : c.endOffset.toNat = b.endOffset.toNat - min count b.size)
    (zeroAreaStart : c.zeroAreaStart.toNat = min b.zeroAreaStart.toNat c.endOffset.toNat)
    (zeroAreaEnd : c.zeroAreaEnd.toNat = min b.zeroAreaEnd.toNat c.endOffset.toNat) :
    Trimmed mem b c ∧ c.size = b.size - count ∧
      ∀ index < c.size, c.byteAt mem index = b.byteAt mem index := by
  have first := formed.start_le
  have second := formed.zero_le
  have third := formed.end_le
  unfold size at endOffset
  refine ⟨trimmed_of formed data ?_ ?_ ?_ ?_ ?_ ?_ ?_, ?_, ?_⟩
  · omega
  · omega
  · omega
  · omega
  · omega
  · unfold blockEnd Buffer.gap
    omega
  · unfold blockEnd Buffer.gap
    omega
  · unfold size
    omega
  · intro index inside
    unfold size at inside
    refine byteAt_eq mem b c data ?_ ?_ ?_
    · omega
    · omega
    · omega

theorem removeAtEnd_spec (formed : b.Formed mem) (count : UInt32) :
    Trimmed mem b (b.removeAtEnd count) ∧
      (b.removeAtEnd count).size = b.size - count.toNat ∧
      ∀ index < (b.removeAtEnd count).size,
        (b.removeAtEnd count).byteAt mem index = b.byteAt mem index := by
  have first := formed.start_le
  have second := formed.zero_le
  have third := formed.end_le
  have endLt := b.endOffset.toNat_lt
  have whole : (b.endOffset - b.start).toNat = b.size := formed.getSize
  have newEnd : (b.endOffset - min count (b.endOffset - b.start)).toNat =
      b.endOffset.toNat - min count.toNat b.size := by
    have : b.size ≤ b.endOffset.toNat := Nat.sub_le _ _
    rw [UInt32.toNat_sub, UInt32.toNat_min, whole]
    omega
  have least : b.start.toNat ≤ b.endOffset.toNat - min count.toNat b.size := by
    unfold size
    omega
  unfold removeAtEnd
  simp only [UInt32.lt_iff_toNat_lt, newEnd]
  split
  · refine cut_of formed ?_ ?_ ?_ ?_ ?_
    · rfl
    · rfl
    · exact newEnd
    · simp only [noteZeroArea, newEnd]
      omega
    · simp only [noteZeroArea, newEnd]
      omega
  · split
    · refine cut_of formed ?_ ?_ ?_ ?_ ?_
      · rfl
      · rfl
      · exact newEnd
      · simp only [noteZeroArea, newEnd]
        omega
      · simp only [noteZeroArea, newEnd]
        omega
    · split
      · refine cut_of formed ?_ ?_ ?_ ?_ ?_
        · rfl
        · rfl
        · exact newEnd
        · simp only [noteZeroArea, newEnd]
          omega
        · simp only [noteZeroArea, newEnd]
          omega
      · refine cut_of formed ?_ ?_ ?_ ?_ ?_
        · rfl
        · rfl
        · simp only [noteZeroArea]
          omega
        · simp only [noteZeroArea]
          omega
        · simp only [noteZeroArea]
          omega

theorem Shows.drop {count : ℕ} (shows : b.Shows mem string) (size : c.size = b.size - count)
    (bytes : ∀ index < c.size, c.byteAt mem' index = b.byteAt mem (count + index)) :
    c.Shows mem' (string.drop count) := by
  refine ⟨by rw [size, shows.1, List.length_drop], ?_⟩
  intro index byte known
  rw [List.getElem?_drop] at known
  have inside := shows.inside known
  rw [bytes index (by omega)]
  exact shows.2 _ byte known

theorem Shows.take {count : ℕ} (shows : b.Shows mem string) (size : c.size = b.size - count)
    (bytes : ∀ index < c.size, c.byteAt mem' index = b.byteAt mem index) :
    c.Shows mem' (string.take (string.length - count)) := by
  refine ⟨by rw [size, shows.1, List.length_take]; omega, ?_⟩
  intro index byte known
  rw [List.getElem?_take] at known
  split at known
  · have := shows.1
    rw [bytes index (by omega)]
    exact shows.2 index byte known
  · cases known

theorem createFragment_spec {start length : UInt32} (holds : mem.Holds live pinned)
    (member : b ∈ live) (inside : start.toNat + length.toNat ≤ b.size) :
    (b.createFragment mem start length).1.Holds ((b.createFragment mem start length).2 :: live)
        pinned ∧
      (∀ c : Buffer, c.Kept mem (b.createFragment mem start length).1) ∧
      ∀ string, b.Shows mem string → (b.createFragment mem start length).2.Shows
        (b.createFragment mem start length).1 ((string.drop start.toNat).take length.toNat) := by
  have formed := holds.formed b member
  have endLt := b.endOffset.toNat_lt
  have reach : b.start.toNat + start.toNat < 2 ^ 32 := by
    unfold size at inside
    have := formed.start_le
    have := formed.zero_le
    have := formed.end_le
    omega
  have shared := holds.copy member
  obtain ⟨lessStart, sizeStart, bytesStart⟩ := removeAtStart_spec start
    (shared.formed _ List.mem_cons_self) reach
  obtain ⟨lessEnd, sizeEnd, bytesEnd⟩ := removeAtEnd_spec lessStart.formed
    (b.getSize - (start + length))
  have size : (b.copy mem).2.size = b.size := rfl
  have whole := formed.getSize
  have sizeLt : b.size ≤ b.endOffset.toNat := Nat.sub_le _ _
  have cut : (b.getSize - (start + length)).toNat = b.size - (start.toNat + length.toNat) := by
    rw [UInt32.toNat_sub, UInt32.toNat_add, whole]
    omega
  refine ⟨lessEnd.holds (lessStart.holds shared), copy_kept mem b, ?_⟩
  intro string shows
  have dropped := (copy_shows shows).drop sizeStart bytesStart
  have taken := dropped.take sizeEnd bytesEnd
  rwa [cut, List.length_drop, ← shows.1, show b.size - start.toNat -
    (b.size - (start.toNat + length.toNat)) = length.toNat by omega] at taken

end Buffer

end FISim.Buffers
