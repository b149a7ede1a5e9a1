import FISim.Buffers.Trimming

/-!
`AddAtEnd` of another buffer: the zero area is lengthened where the buffers have
adjacent zero areas, and otherwise the bytes are copied behind a full copy.
-/

namespace FISim.Buffers

open Cells

namespace Buffer

variable {mem mem' : Memory} {b o full : Buffer} {live others : List Buffer} {pinned : List ℕ}
  {string other : List (Option UInt8)}

/-- The offsets and the sizes of a full copy do not wrap around. -/
def FitsFullCopy (mem : Memory) (b : Buffer) : Prop :=
  b.zeroSize = 0 ∨ (b.size + 19 < 2 ^ 32 ∧
    mem.newStart.toNat + (b.endOffset.toNat - b.zeroAreaEnd.toNat) < 2 ^ 32)

/-- Only zeros may lengthen a zero area, and the bytes that are copied may not come to lie in the
block that they come from. -/
def FitsBufferAtEnd (mem : Memory) (b o : Buffer) : Prop :=
  if b.adjacentZeroAreas mem o then
    o.endOffset = o.zeroAreaEnd ∧ b.endOffset.toNat + o.gap < 2 ^ 32
  else if b.zeroSize = 0 then
    b.FitsAtEnd mem o.getSize ∧ ¬ (o.data = b.data ∧ b.roomAtEnd mem o.getSize = true)
  else mem.newStart.toNat + b.size + o.size + 19 < 2 ^ 32

instance : Decidable (b.FitsFullCopy mem) := by
  delta FitsFullCopy
  infer_instance

instance : Decidable (b.FitsBufferAtEnd mem o) := by
  delta FitsBufferAtEnd
  infer_instance

theorem fullCopy_zero (holds : mem.Holds live pinned) (member : b ∈ live) (zero : b.zeroSize = 0) :
    b.createFullCopy mem = some (b.copy mem) ∧
      FullCopy mem (b.copy mem).1 b (b.copy mem).2 live pinned := by
  refine ⟨?_, holds.copy member, fun c _ => copy_kept mem b c,
    fun string shows => copy_shows shows, ?_⟩
  · simp only [createFullCopy, zero, ne_eq, not_true_eq_false, ↓reduceIte]
  · exact gap_eq_zero zero

theorem fullCopy_spec (holds : mem.Holds live pinned) (member : b ∈ live)
    (fits : b.FitsFullCopy mem) :
    ∃ mem' full, b.createFullCopy mem = some (mem', full) ∧
      FullCopy mem mem' b full live pinned := by
  by_cases zero : b.zeroSize = 0
  · exact ⟨_, _, fullCopy_zero holds member zero⟩
  · rcases fits with contrary | ⟨small, begins⟩
    · exact absurd contrary zero
    · obtain ⟨mem', full, ran, copied, -, -⟩ := createFullCopy_spec holds member zero small begins
      exact ⟨mem', full, ran, copied⟩

section Lengthened

def lengthened (b : Buffer) (zeroSize : UInt32) : Buffer :=
  { b with
    zeroAreaStart := if b.zeroAreaStart = b.zeroAreaEnd then b.endOffset else b.zeroAreaStart
    zeroAreaEnd := b.endOffset + zeroSize
    endOffset := b.endOffset + zeroSize }

variable (adjacent : b.adjacentZeroAreas mem o = true)

include adjacent

theorem addBufferAtEnd_adjacent : b.addBufferAtEnd mem o = (do
    let (mem, b) ← (b.lengthened o.zeroSize).addAtEnd
      (mem.setDirtyEnd b.data (b.lengthened o.zeroSize).endOffset) (o.endOffset - o.zeroAreaEnd)
    let dst ← b.atEnd.prev (o.endOffset - o.zeroAreaEnd)
    let src ← o.atEnd.prev (o.endOffset - o.zeroAreaEnd)
    let (mem, _) ← dst.writeRange mem src o.atEnd
    return (mem, b)) := by
  unfold addBufferAtEnd lengthened
  simp only [adjacent, ↓reduceIte]
  split
  · rfl
  · rfl

theorem adjacent_cases : (mem.data b.data).count = 1 ∧
    (b.endOffset = b.zeroAreaEnd ∨ b.zeroAreaStart = b.zeroAreaEnd) ∧
    b.endOffset = (mem.data b.data).dirtyEnd ∧ o.start = o.zeroAreaStart := by
  simp only [adjacentZeroAreas, Bool.and_eq_true, Bool.or_eq_true, decide_eq_true_eq] at adjacent
  exact ⟨adjacent.1.1.1.1, adjacent.1.1.1.2, adjacent.1.1.2, adjacent.1.2⟩

theorem lengthened_offsets (formed : b.Formed mem) {zeroSize : UInt32}
    (fits : b.endOffset.toNat + zeroSize.toNat < 2 ^ 32) :
    (b.lengthened zeroSize).endOffset.toNat = b.endOffset.toNat + zeroSize.toNat ∧
      b.blockEnd = b.endOffset.toNat - b.gap ∧
      (b.lengthened zeroSize).zeroAreaStart.toNat = b.blockEnd := by
  have first := formed.start_le
  have second := formed.zero_le
  have third := formed.end_le
  obtain ⟨-, places, -, -⟩ := adjacent_cases adjacent
  refine ⟨?_, rfl, ?_⟩
  · change (b.endOffset + zeroSize).toNat = _
    rw [UInt32.toNat_add]
    omega
  · unfold lengthened blockEnd gap
    simp only []
    split
    · rename_i empty
      rw [empty]
      omega
    · rename_i filled
      rcases places with reached | empty
      · rw [reached]
        omega
      · exact absurd empty filled

theorem lengthened_holds (holds : mem.Holds (b :: others) pinned) {zeroSize : UInt32}
    (fits : b.endOffset.toNat + zeroSize.toNat < 2 ^ 32) :
    (mem.setDirtyEnd b.data (b.lengthened zeroSize).endOffset).Holds
      (b.lengthened zeroSize :: others) pinned := by
  have formed := holds.formed b List.mem_cons_self
  have first := formed.start_le
  have second := formed.zero_le
  have third := formed.end_le
  have inside := formed.inside
  obtain ⟨last, whole, zeroStart⟩ := lengthened_offsets adjacent formed fits
  have reach : (b.lengthened zeroSize).blockEnd = b.blockEnd := by
    change (b.lengthened zeroSize).endOffset.toNat -
      ((b.lengthened zeroSize).endOffset.toNat - (b.lengthened zeroSize).zeroAreaStart.toNat) = _
    omega
  apply holds.growBack
  · rfl
  · rfl
  · rw [zeroStart]
    exact formed.start_le_blockEnd
  · change _ ≤ (b.lengthened zeroSize).endOffset.toNat
    omega
  · exact Nat.le_refl _
  · rw [reach]
    exact inside
  · omega
  · exact reach.ge
  · intro _
    exact reach
  · exact .inl (adjacent_cases adjacent).1

theorem lengthened_shows (formed : b.Formed mem) {zeroSize : UInt32}
    (fits : b.endOffset.toNat + zeroSize.toNat < 2 ^ 32) (shows : b.Shows mem string) :
    (b.lengthened zeroSize).Shows (mem.setDirtyEnd b.data (b.lengthened zeroSize).endOffset)
      (string ++ List.replicate zeroSize.toNat (some 0)) := by
  have first := formed.start_le
  have second := formed.zero_le
  have third := formed.end_le
  obtain ⟨last, whole, zeroStart⟩ := lengthened_offsets adjacent formed fits
  have zeroEnd : (b.lengthened zeroSize).zeroAreaEnd.toNat = _ := last
  have start : (b.lengthened zeroSize).start = b.start := rfl
  have length := shows.1
  have bytes : ((mem.setDirtyEnd b.data (b.lengthened zeroSize).endOffset).data b.data).data =
      (mem.data b.data).data := by
    simp [Memory.setDirtyEnd]
  have places : b.endOffset.toNat = b.zeroAreaEnd.toNat ∨
      b.zeroAreaStart.toNat = b.zeroAreaEnd.toNat :=
    (adjacent_cases adjacent).2.1.imp (congrArg UInt32.toNat) (congrArg UInt32.toNat)
  have longer : (b.lengthened zeroSize).size = b.size + zeroSize.toNat := by
    unfold size
    rw [last, start]
    omega
  refine ⟨by rw [longer, length, List.length_append, List.length_replicate], ?_⟩
  intro index byte known
  by_cases old : index < b.size
  · rw [List.getElem?_append_left (by omega)] at known
    rw [← shows.2 index byte known]
    unfold size at old
    unfold byteAt
    simp only [start, zeroStart, zeroEnd]
    change (if _ then ((mem.setDirtyEnd b.data _).data b.data).data _ else if _ then _ else
      ((mem.setDirtyEnd b.data _).data b.data).data _) = _
    rw [bytes]
    unfold gap at *
    by_cases early : b.start.toNat + index < b.blockEnd
    · rw [if_pos early]
      by_cases before : b.start.toNat + index < b.zeroAreaStart.toNat
      · rw [if_pos before]
      · rw [if_neg before, if_neg (by omega)]
        congr 1
        omega
    · rw [if_neg early, if_pos (by omega), if_neg (by omega), if_pos (by omega)]
  · have inside := (List.getElem?_eq_some_iff.mp known).1
    rw [List.length_append, List.length_replicate] at inside
    rw [List.getElem?_append_right (by omega), List.getElem?_replicate_of_lt (by omega)] at known
    unfold size at old
    rw [← Option.some.inj (Option.some.inj known)]
    unfold byteAt
    simp only [start, zeroStart, zeroEnd]
    rw [if_neg (by omega), if_pos (by unfold size at length; omega)]

end Lengthened

theorem Shows.zeros (shows : o.Shows mem other) (start : o.start = o.zeroAreaStart)
    (last : o.endOffset = o.zeroAreaEnd) {index : ℕ} {byte : UInt8}
    (known : other[index]? = some (some byte)) : byte = 0 := by
  have inside := shows.inside known
  rw [← shows.2 index byte known]
  unfold size at inside
  unfold byteAt
  simp only []
  rw [if_neg (by rw [start]; omega), if_pos (by rw [← last]; omega)]

theorem addZerosAtEnd_spec (holds : mem.Holds (b :: others) pinned) (member : o ∈ others)
    (adjacent : b.adjacentZeroAreas mem o = true) (zeros : o.endOffset = o.zeroAreaEnd)
    (fits : b.endOffset.toNat + o.gap < 2 ^ 32) (shows : b.Shows mem string)
    (shown : o.Shows mem other) :
    ∃ mem' b', b.addBufferAtEnd mem o = some (mem', b') ∧ mem'.Holds (b' :: others) pinned ∧
      (∀ c ∈ others, c.Kept mem mem') ∧ b'.Shows mem' (string ++ other) := by
  have formed := holds.formed b List.mem_cons_self
  have formedO := holds.formed o (List.mem_cons_of_mem _ member)
  obtain ⟨once, -, -, begins⟩ := adjacent_cases adjacent
  have zeroSize := formedO.zeroSize
  have whole : o.size = o.gap := by
    unfold size gap
    rw [zeros, begins]
  rw [← zeroSize] at fits
  have wide := lengthened_holds adjacent holds fits
  have widened := lengthened_shows adjacent formed fits shows
  have apart : o.data ≠ b.data := holds.alone once member
  generalize isMade : mem.setDirtyEnd b.data (b.lengthened o.zeroSize).endOffset = made at *
  generalize isWide : b.lengthened o.zeroSize = w at *
  have data : w.data = b.data := by rw [← isWide]; rfl
  have others_kept : ∀ c : Buffer, c.Kept mem made := by
    intro c
    refine .of_eq ?_
    rw [← isMade, Memory.setDirtyEnd]
    by_cases here : c.data = b.data
    · rw [here, Memory.modify_self]
    · rw [Memory.modify_of_ne here]
  have count : (made.data w.data).count = 1 := by
    rw [← isMade, data, Memory.setDirtyEnd, Memory.modify_self]
    exact once
  have formedW := wide.formed w List.mem_cons_self
  have room : w.roomAtEnd made 0 = true := by
    simp only [roomAtEnd, UInt32.add_zero, count, Nat.lt_irrefl, decide_false, Bool.false_and,
      Bool.not_false, Bool.and_true, decide_eq_true_eq, UInt32.le_iff_toNat_le,
      formedW.getInternalEnd]
    exact formedW.inside
  have endLt := w.endOffset.toNat_lt
  obtain ⟨made', b', added, grown, settled⟩ := addAtEnd_spec 0 wide (by
    rw [FitsAtEnd, if_pos room, UInt32.toNat_zero]
    omega)
  rw [room] at settled
  have same : b'.data = b.data := Eq.trans settled data
  have formed' := grown.holds.formed b' List.mem_cons_self
  have formedO' := grown.holds.formed o (List.mem_cons_of_mem _ member)
  obtain ⟨dst, back, atDst⟩ := (points_atEnd formed').prev 0 (Nat.zero_le _)
  obtain ⟨src, backO, atSrc⟩ := (points_atEnd formedO').prev 0 (Nat.zero_le _)
  obtain ⟨written, moved, wrote, -, nothing⟩ := Iterator.writeRange_spec atDst formed' atSrc
    (points_atEnd formedO') formedO' (by rw [same]; exact Ne.symm apart) (Nat.le_refl _)
    (Nat.le_refl _) (by rw [UInt32.toNat_zero]; omega)
    (by
      right; left
      have := formed'.end_le
      have := formed'.start_le
      have := formed'.zero_le
      rw [UInt32.toNat_zero]
      unfold size
      omega) (.inl rfl)
  have noData : o.endOffset - o.zeroAreaEnd = 0 := by rw [zeros, UInt32.sub_self]
  have empty : (o.bytesFrom made' (o.size - (0 : UInt32).toNat)
      (o.size - (o.size - (0 : UInt32).toNat))).length = 0 := by
    rw [bytesFrom_length, UInt32.toNat_zero]
    omega
  rw [UInt32.toNat_zero] at grown
  rw [show b'.size - (0 : UInt32).toNat = w.size by
    rw [grown.size, UInt32.toNat_zero]
    omega] at nothing
  obtain ⟨holds', kept, shows'⟩ := grown.wroteBack widened nothing empty
    (show Matches _ [] from ⟨empty.symm, by simp⟩)
  refine ⟨written, b', ?_, holds', ?_, ?_⟩
  · rw [addBufferAtEnd_adjacent adjacent, isWide, isMade, noData]
    simp only [added, back, backO, wrote, Option.bind_eq_bind, Option.bind_some]
    rfl
  · intro c inside
    exact (others_kept c).trans (kept c inside)
  · rw [List.append_nil] at shows'
    have length := shown.1
    refine ⟨?_, ?_⟩
    · rw [shows'.1, List.length_append, List.length_append, List.length_replicate]
      omega
    · intro index byte known
      apply shows'.2
      by_cases old : index < string.length
      · rwa [List.getElem?_append_left old] at known ⊢
      · have inside := (List.getElem?_eq_some_iff.mp known).1
        rw [List.length_append] at inside
        rw [List.getElem?_append_right (by omega)] at known ⊢
        rw [shown.zeros begins zeros known, List.getElem?_replicate_of_lt (by omega)]

theorem Shows.matches (shown : o.Shows mem other) {first count : ℕ}
    (within : first + count ≤ o.size) :
    Matches (o.bytesFrom mem first count) ((other.drop first).take count) := by
  have length := shown.1
  refine ⟨?_, ?_⟩
  · rw [List.length_take, List.length_drop, bytesFrom_length]
    omega
  · intro index byte known
    rw [List.getElem?_take] at known
    split at known
    · rename_i inside
      rw [List.getElem?_drop] at known
      rw [bytesFrom_getElem? inside, shown.2 _ byte known]
    · cases known

theorem FullCopy.replaces (copied : FullCopy mem mem' b full (b :: others) pinned) :
    (full.destroy (b.assign mem' full).1).Holds (full :: others) pinned ∧
      (∀ c ∈ others, c.Kept mem (full.destroy (b.assign mem' full).1)) ∧
      ∀ string, b.Shows mem string →
        full.Shows (full.destroy (b.assign mem' full).1) string := by
  obtain ⟨assigned, keptByAssign⟩ := (copied.holds.perm (List.Perm.swap b full others)).assign
    List.mem_cons_self
  obtain ⟨destroyed, keptByDestroy⟩ := assigned.destroy
  refine ⟨destroyed, ?_, ?_⟩
  · intro c member
    exact ((copied.kept c (List.mem_cons_of_mem _ member)).trans (keptByAssign c)).trans
      (keptByDestroy c)
  · intro string shows
    exact (copied.shows string shows).kept ((keptByAssign full).trans (keptByDestroy full))
      (copied.holds.formed full List.mem_cons_self)

/-- A copy that is no more than another count of the block leaves the block as it was. -/
theorem copy_replaces (mem : Memory) (b : Buffer) (address : ℕ) :
    ((b.copy mem).2.destroy (b.assign (b.copy mem).1 (b.copy mem).2).1).data address =
      mem.data address := by
  have same : (b.copy mem).2.data = b.data := rfl
  have assigned : (b.assign (b.copy mem).1 (b.copy mem).2).1.data = (mem.share b.data).data := by
    unfold assign
    simp only [same, ne_eq, not_true_eq_false, ↓reduceIte]
    rfl
  have noted : ∀ (m : Memory) start, (m.recommend start).data = m.data := fun _ _ => rfl
  unfold destroy
  rw [Memory.release_data, noted, assigned, same]
  by_cases here : address = b.data
  · rw [if_pos here, here]
    simp [Memory.share]
  · rw [if_neg here, Memory.share, Memory.modify_of_ne here]

theorem copyBufferAtEnd_spec (holds : mem.Holds (b :: others) pinned) (member : o ∈ others)
    (separate : b.adjacentZeroAreas mem o = false) (fits : b.FitsBufferAtEnd mem o)
    (shows : b.Shows mem string) (shown : o.Shows mem other) :
    ∃ mem' b', b.addBufferAtEnd mem o = some (mem', b') ∧ mem'.Holds (b' :: others) pinned ∧
      (∀ c ∈ others, c.Kept mem mem') ∧ b'.Shows mem' (string ++ other) := by
  have formedO := holds.formed o (List.mem_cons_of_mem _ member)
  have sizeO := formedO.getSize
  obtain ⟨mem₁, full, made, copied, room, apart⟩ : ∃ mem₁ full,
      b.createFullCopy mem = some (mem₁, full) ∧
      FullCopy mem mem₁ b full (b :: others) pinned ∧
      full.FitsAtEnd (full.destroy (b.assign mem₁ full).1) o.getSize ∧
      (full.roomAtEnd (full.destroy (b.assign mem₁ full).1) o.getSize = true →
        o.data ≠ full.data) := by
    unfold FitsBufferAtEnd at fits
    rw [separate, if_neg Bool.false_ne_true] at fits
    by_cases zero : b.zeroSize = 0
    · rw [if_pos zero] at fits
      obtain ⟨made, copied⟩ := fullCopy_zero holds List.mem_cons_self zero
      have block := copy_replaces mem b b.data
      have room : (b.copy mem).2.roomAtEnd ((b.copy mem).2.destroy
          (b.assign (b.copy mem).1 (b.copy mem).2).1) o.getSize = b.roomAtEnd mem o.getSize := by
        change (_ ≤ (Memory.data _ b.data).size && !(1 < (Memory.data _ b.data).count &&
          _ < (Memory.data _ b.data).dirtyEnd)) = _
        rw [block]
        rfl
      refine ⟨(b.copy mem).1, (b.copy mem).2, made, copied, ?_, ?_⟩
      · have roomy := fits.1
        unfold FitsAtEnd at roomy ⊢
        rw [room]
        exact roomy
      · rw [room]
        intro stays shared
        exact fits.2 ⟨shared, stays⟩
    · rw [if_neg zero] at fits
      have tail : b.endOffset.toNat - b.zeroAreaEnd.toNat ≤ b.size := by
        have := (holds.formed b List.mem_cons_self).start_le
        have := (holds.formed b List.mem_cons_self).zero_le
        unfold size
        omega
      obtain ⟨mem₁, full, made, copied, apart, reach⟩ := createFullCopy_spec holds
        List.mem_cons_self zero (by omega) (by omega)
      have replaced := copied.replaces.1.formed full List.mem_cons_self
      have size : full.size = b.size := by
        rw [(copied.shows _ (shows_bytesFrom mem b)).1, List.length_map, bytesFrom_length]
      have inner := replaced.getInternalSize
      have less : full.blockEnd ≤ full.endOffset.toNat := Nat.sub_le _ _
      refine ⟨mem₁, full, made, copied, ?_, ?_⟩
      · unfold FitsAtEnd
        split
        · omega
        · unfold Buffer.size at size ⊢
          omega
      · intro _
        exact apart o (List.mem_cons_of_mem _ member)
  obtain ⟨holds₂, kept₂, shows₂⟩ := copied.replaces
  generalize isMem : full.destroy (b.assign mem₁ full).1 = mem₂ at *
  have formedO₂ := holds₂.formed o (List.mem_cons_of_mem _ member)
  obtain ⟨mem₃, b', added, grown, settled⟩ := addAtEnd_spec o.getSize holds₂ room
  have elsewhere : b'.data ≠ o.data := by
    unfold Settled at settled
    by_cases stays : full.roomAtEnd mem₂ o.getSize = true
    · rw [if_pos stays] at settled
      rw [settled]
      exact Ne.symm (apart stays)
    · rw [if_neg stays] at settled
      exact Ne.symm (settled o member)
  have formed₃ := grown.holds.formed b' List.mem_cons_self
  have formedO₃ := grown.holds.formed o (List.mem_cons_of_mem _ member)
  have size := grown.size
  have gap : b'.gap = 0 := by rw [grown.gap, copied.gap]
  obtain ⟨destStart, back, atDest⟩ := (points_atEnd formed₃).prev o.getSize (by omega)
  rw [show b'.size - o.getSize.toNat = full.size by omega] at atDest
  obtain ⟨mem₄, moved, wrote, -, written⟩ := Iterator.writeRange_spec atDest formed₃
    o.points_atBegin (points_atEnd formedO₃) formedO₃ elsewhere (Nat.zero_le _) (Nat.le_refl _)
    (by omega) (.inr (.inr gap)) (.inr (.inr gap))
  have shownO := (shown.kept (kept₂ o member) formedO).kept (grown.kept o member) formedO₂
  have same : Matches (o.bytesFrom mem₃ 0 o.size) ((other.drop 0).take o.size) :=
    shownO.matches (by omega)
  rw [List.drop_zero, shown.1, List.take_length] at same
  obtain ⟨holds₄, kept₄, shows₄⟩ := grown.wroteBack (shows₂ string shows) written
    (by rw [bytesFrom_length, sizeO, Nat.sub_zero]) (by rwa [Nat.sub_zero, shown.1])
  refine ⟨mem₄, b', ?_, holds₄, ?_, shows₄⟩
  · simp only [addBufferAtEnd, separate, Bool.false_eq_true, ↓reduceIte, made, Option.bind_eq_bind,
      Option.bind_some]
    change ((full.addAtEnd (full.destroy (b.assign mem₁ full).1) o.getSize).bind _) = _
    rw [isMem, added]
    simp only [Option.bind_some, back, wrote]
    rfl
  · intro c inside
    exact (kept₂ c inside).trans (kept₄ c inside)

theorem addBufferAtEnd_spec (holds : mem.Holds (b :: others) pinned) (member : o ∈ others)
    (fits : b.FitsBufferAtEnd mem o) (shows : b.Shows mem string) (shown : o.Shows mem other) :
    ∃ mem' b', b.addBufferAtEnd mem o = some (mem', b') ∧ mem'.Holds (b' :: others) pinned ∧
      (∀ c ∈ others, c.Kept mem mem') ∧ b'.Shows mem' (string ++ other) := by
  by_cases adjacent : b.adjacentZeroAreas mem o = true
  · unfold FitsBufferAtEnd at fits
    rw [if_pos adjacent] at fits
    exact addZerosAtEnd_spec holds member adjacent fits.1 fits.2 shows shown
  · exact copyBufferAtEnd_spec holds member (Bool.not_eq_true _ ▸ adjacent) fits shows shown

end Buffer

end FISim.Buffers
