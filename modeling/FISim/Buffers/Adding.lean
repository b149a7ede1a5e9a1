import FISim.Buffers.Sharing

/-!
`AddAtStart` and `AddAtEnd` give a buffer bytes that no other buffer has, and
leave the bytes of all buffers as they are.
-/

namespace FISim.Buffers

open Cells

namespace Buffer

variable {mem mem' : Memory} {b b' : Buffer} {others : List Buffer} {pinned : List ℕ}

theorem shift_toNat {place base target : UInt32} (behind : base.toNat ≤ place.toNat)
    (fits : target.toNat + (place.toNat - base.toNat) < 2 ^ 32) :
    (place + (target - base)).toNat = target.toNat + (place.toNat - base.toNat) := by
  have := place.toNat_lt
  have := base.toNat_lt
  have := target.toNat_lt
  simp only [UInt32.toNat_add, UInt32.toNat_sub]
  omega

theorem Formed.getSize (formed : b.Formed mem) : b.getSize.toNat = b.size := by
  have := formed.start_le
  have := formed.zero_le
  have := formed.end_le
  have := b.endOffset.toNat_lt
  have := b.start.toNat_lt
  simp only [Buffer.getSize, size, UInt32.toNat_sub]
  omega

theorem Formed.zeroSize (formed : b.Formed mem) : b.zeroSize.toNat = b.gap := by
  have := formed.zero_le
  have := b.zeroAreaEnd.toNat_lt
  have := b.zeroAreaStart.toNat_lt
  simp only [Buffer.zeroSize, gap, UInt32.toNat_sub]
  omega

theorem gap_eq_zero (zero : b.zeroSize = 0) : b.gap = 0 := by
  have length := congrArg UInt32.toNat zero
  have := b.zeroAreaEnd.toNat_lt
  have := b.zeroAreaStart.toNat_lt
  simp only [Buffer.zeroSize, UInt32.toNat_sub, UInt32.toNat_zero] at length
  unfold gap
  omega

theorem Formed.getInternalEnd (formed : b.Formed mem) : b.getInternalEnd.toNat = b.blockEnd := by
  have := formed.zeroSize
  have := formed.zero_le
  have := formed.end_le
  have := b.endOffset.toNat_lt
  have := b.zeroSize.toNat_lt
  simp only [Buffer.getInternalEnd, blockEnd, gap, UInt32.toNat_sub] at *
  omega

theorem Formed.getInternalSize (formed : b.Formed mem) :
    b.getInternalSize.toNat = b.blockEnd - b.start.toNat := by
  have := formed.start_le
  have := formed.zero_le
  have := formed.end_le
  have := b.endOffset.toNat_lt
  have := b.start.toNat_lt
  have := b.zeroAreaStart.toNat_lt
  have := b.zeroAreaEnd.toNat_lt
  simp only [Buffer.getInternalSize, blockEnd, gap, UInt32.toNat_add, UInt32.toNat_sub]
  omega

theorem Formed.start_le_blockEnd (formed : b.Formed mem) : b.start.toNat ≤ b.blockEnd := by
  have := formed.start_le
  have := formed.zero_le
  have := formed.end_le
  unfold blockEnd gap
  omega

/-- The buffer has a block of its own, which it has yet to take over. -/
structure Relocated (mem mem' : Memory) (b r : Buffer) (others : List Buffer) (pinned : List ℕ)
    (newSize offset : ℕ) : Prop where
  holds : mem'.Holds others (r.data :: pinned)
  once : (mem'.data r.data).count = 1
  kept : ∀ c ∈ others, c.Kept mem mem'
  room : newSize ≤ (mem'.data r.data).size.toNat
  bytes : ∀ index < b.blockEnd - b.start.toNat,
    (mem'.data r.data).data (offset + index) = (mem.data b.data).data (b.start.toNat + index)
  start : r.start.toNat = offset
  zeroAreaStart : r.zeroAreaStart.toNat = offset + (b.zeroAreaStart.toNat - b.start.toNat)
  zeroAreaEnd : r.zeroAreaEnd.toNat = offset + (b.zeroAreaEnd.toNat - b.start.toNat)
  endOffset : r.endOffset.toNat = offset + b.size

theorem relocate_spec (newSize offset : UInt32) (holds : mem.Holds (b :: others) pinned)
    (fits : newSize.toNat + 19 < 2 ^ 32)
    (room : offset.toNat + (b.blockEnd - b.start.toNat) ≤ newSize.toNat)
    (reach : offset.toNat + b.size < 2 ^ 32) :
    ∃ mem' r, b.relocate mem newSize offset = some (mem', r) ∧
      Relocated mem mem' b r others pinned newSize.toNat offset.toNat := by
  have formed := holds.formed b List.mem_cons_self
  have first := formed.start_le
  have second := formed.zero_le
  have third := formed.end_le
  obtain ⟨made, address, created, pinnedHolds, unused, once, same, large⟩ := holds.create newSize fits
  have apart := holds.elsewhere unused List.mem_cons_self
  have old : made.data b.data = mem.data b.data := same b.data apart
  have readable : made.read b.data b.start.toNat b.getInternalSize.toNat =
      some (slice (mem.data b.data).data b.start.toNat b.getInternalSize.toNat) := by
    rw [Memory.read, old, if_pos]
    right
    have := formed.inside
    have := formed.start_le_blockEnd
    rw [formed.getInternalSize]
    omega
  have length : (slice (mem.data b.data).data b.start.toNat b.getInternalSize.toNat).length =
      b.blockEnd - b.start.toNat := by
    rw [slice_length, formed.getInternalSize]
  have writable := @Memory.write_spec made address offset.toNat
    (slice (mem.data b.data).data b.start.toNat b.getInternalSize.toNat) (by
      right
      rw [length]
      omega)
  set written := made.modify address fun data => { data with
    data := patch data.data offset.toNat
      (slice (mem.data b.data).data b.start.toNat b.getInternalSize.toNat) } with isWritten
  have writtenHolds : written.Holds (b :: others) (address :: pinned) :=
    pinnedHolds.patch address offset.toNat _
  have inBlock : written.data address = { made.data address with
      data := patch (made.data address).data offset.toNat
        (slice (mem.data b.data).data b.start.toNat b.getInternalSize.toNat) } := by
    rw [isWritten, Memory.modify_self]
  have released : (written.release b.data).data address = written.data address := by
    rw [Memory.release_data, if_neg (Ne.symm apart)]
  refine ⟨written.release b.data, { b with
    data := address
    start := b.start + (offset - b.start)
    zeroAreaStart := b.zeroAreaStart + (offset - b.start)
    zeroAreaEnd := b.zeroAreaEnd + (offset - b.start)
    endOffset := b.endOffset + (offset - b.start) }, ?_, ?_⟩
  · simp only [relocate, created, Option.bind_eq_bind, Option.bind_some, readable, writable]
    rfl
  · constructor
    · exact writtenHolds.release
    · change ((written.release b.data).data address).count = 1
      rw [released, inBlock]
      exact once
    · intro c member
      have other := holds.elsewhere unused (List.mem_cons_of_mem b member)
      refine Kept.of_eq ?_
      rw [Memory.release_bytes, isWritten, Memory.modify_of_ne other, same c.data other]
    · change _ ≤ ((written.release b.data).data address).size.toNat
      rw [released, inBlock]
      exact large
    · intro index inside
      change ((written.release b.data).data address).data _ = _
      rw [released, inBlock]
      refine patch_inside (slice_getElem? ?_)
      rw [formed.getInternalSize]
      exact inside
    · exact (shift_toNat (Nat.le_refl _) (by omega)).trans (by omega)
    · exact shift_toNat first (by unfold size at reach; omega)
    · exact shift_toNat (by omega) (by unfold size at reach; omega)
    · exact shift_toNat (by omega) (by unfold size at reach; omega)

theorem byteAt_congr {mem mem' : Memory} (same : (mem'.data b.data).data = (mem.data b.data).data) (offset : ℕ) :
    b.byteAt mem' offset = b.byteAt mem offset := by
  unfold byteAt
  rw [same]

theorem byteAt_shift (b b' : Buffer) (data : b'.data = b.data) {front : ℕ}
    (start : b'.start.toNat + front = b.start.toNat)
    (zeroAreaStart : b'.zeroAreaStart = b.zeroAreaStart)
    (zeroAreaEnd : b'.zeroAreaEnd = b.zeroAreaEnd) (offset : ℕ) :
    b'.byteAt mem (front + offset) = b.byteAt mem offset := by
  unfold byteAt gap
  rw [data, zeroAreaStart, zeroAreaEnd, ← Nat.add_assoc, start]

theorem Relocated.byteAt {r : Buffer} {newSize offset : ℕ}
    (relocated : Relocated mem mem' b r others pinned newSize offset) (formed : b.Formed mem)
    {index : ℕ} (inside : index < b.size) : r.byteAt mem' index = b.byteAt mem index := by
  have first := formed.start_le
  have second := formed.zero_le
  have third := formed.end_le
  have start := relocated.start
  have zeroStart := relocated.zeroAreaStart
  have zeroEnd := relocated.zeroAreaEnd
  unfold size at inside
  unfold Buffer.byteAt
  simp only []
  by_cases early : b.start.toNat + index < b.zeroAreaStart.toNat
  · rw [if_pos early, if_pos (by omega), start]
    exact relocated.bytes index (by unfold blockEnd gap; omega)
  · rw [if_neg early, if_neg (by omega)]
    by_cases zero : b.start.toNat + index < b.zeroAreaEnd.toNat
    · rw [if_pos zero, if_pos (by omega)]
    · rw [if_neg zero, if_neg (by omega)]
      have found := relocated.bytes (index - b.gap) (by unfold blockEnd gap; omega)
      unfold gap at found ⊢
      rw [start, show offset + index - (r.zeroAreaEnd.toNat - r.zeroAreaStart.toNat) =
        offset + (index - (b.zeroAreaEnd.toNat - b.zeroAreaStart.toNat)) by omega, found]
      congr 1
      omega

/-- The buffer has grown, at its front or at its back, by bytes that no other buffer has. -/
structure Grown (mem mem' : Memory) (b b' : Buffer) (others : List Buffer) (pinned : List ℕ)
    (front back : ℕ) : Prop where
  holds : mem'.Holds (b' :: others) pinned
  kept : ∀ c ∈ others, c.Kept mem mem'
  size : b'.size = front + b.size + back
  moved : ∀ index < b.size, b'.byteAt mem' (front + index) = b.byteAt mem index
  own : ∀ c ∈ others, c.data = b'.data → ∀ cell,
    (b'.start.toNat ≤ cell ∧ cell < b'.start.toNat + front) ∨
      (b'.blockEnd ≤ cell + back ∧ cell < b'.blockEnd) →
    cell < c.start.toNat ∨ c.blockEnd ≤ cell
  gap : b'.gap = b.gap
  frontRoom : b'.start.toNat + front ≤ b'.zeroAreaStart.toNat
  backRoom : b'.zeroAreaEnd.toNat + back ≤ b'.endOffset.toNat
  reach : b'.endOffset.toNat = b.endOffset.toNat + back ∨ b'.endOffset.toNat = b'.size

/-- A buffer stays in its block where there is room, and has a block of its own otherwise. -/
def Settled (room : Bool) (b b' : Buffer) (others : List Buffer) : Prop :=
  if room then b'.data = b.data else ∀ c ∈ others, c.data ≠ b'.data

theorem Settled.apart {room : Bool} (settled : Settled room b b' others)
    (apart : ∀ c ∈ others, c.data ≠ b.data) : ∀ c ∈ others, c.data ≠ b'.data := by
  cases room with
  | true =>
      intro c member
      rw [show b'.data = b.data from settled]
      exact apart c member
  | false => exact settled

/-- The offsets and the size of the new block, where there is one, do not wrap around. -/
def FitsAtStart (mem : Memory) (b : Buffer) (start : UInt32) : Prop :=
  b.roomAtStart mem start = true ∨
    (b.size + start.toNat < 2 ^ 32 ∧ b.getInternalSize.toNat + start.toNat + 19 < 2 ^ 32)

def FitsAtEnd (mem : Memory) (b : Buffer) (count : UInt32) : Prop :=
  if b.roomAtEnd mem count then b.endOffset.toNat + count.toNat < 2 ^ 32
  else b.size + count.toNat < 2 ^ 32 ∧ b.getInternalSize.toNat + count.toNat + 19 < 2 ^ 32

instance (start : UInt32) : Decidable (b.FitsAtStart mem start) := by
  delta FitsAtStart
  infer_instance

instance (count : UInt32) : Decidable (b.FitsAtEnd mem count) := by
  delta FitsAtEnd
  infer_instance

theorem Formed.clean (formed : b.Formed mem) (positive : 0 < (mem.data b.data).count)
    {start : UInt32} (room : b.roomAtStart mem start = true) :
    start.toNat ≤ b.start.toNat ∧
      ((mem.data b.data).count = 1 ∨ b.start = (mem.data b.data).dirtyStart) := by
  have marked := formed.dirtyStart_le
  simp only [roomAtStart, Bool.and_eq_true, decide_eq_true_eq, Bool.not_eq_true',
    Bool.and_eq_false_iff, decide_eq_false_iff_not, Nat.not_lt, UInt32.le_iff_toNat_le,
    UInt32.lt_iff_toNat_lt] at room
  obtain ⟨ahead, few | reached⟩ := room
  · exact ⟨ahead, .inl (by omega)⟩
  · exact ⟨ahead, .inr (UInt32.toNat_inj.mp (by omega))⟩

theorem Formed.cleanEnd (formed : b.Formed mem) (positive : 0 < (mem.data b.data).count)
    {count : UInt32} (reach : b.endOffset.toNat + count.toNat < 2 ^ 32)
    (room : b.roomAtEnd mem count = true) :
    b.blockEnd + count.toNat ≤ (mem.data b.data).size.toNat ∧
      ((mem.data b.data).count = 1 ∨ b.endOffset = (mem.data b.data).dirtyEnd) := by
  have marked := formed.le_dirtyEnd
  have last := formed.getInternalEnd
  have inner : b.blockEnd ≤ b.endOffset.toNat := Nat.sub_le _ _
  simp only [roomAtEnd, Bool.and_eq_true, decide_eq_true_eq, Bool.not_eq_true',
    Bool.and_eq_false_iff, decide_eq_false_iff_not, Nat.not_lt, UInt32.le_iff_toNat_le,
    UInt32.lt_iff_toNat_lt, UInt32.toNat_add, last] at room
  rw [Nat.mod_eq_of_lt (by omega)] at room
  obtain ⟨fits, few | reached⟩ := room
  · exact ⟨fits, .inl (by omega)⟩
  · exact ⟨fits, .inr (UInt32.toNat_inj.mp (by omega))⟩

theorem Grown.atFront {front : ℕ} (holds : mem'.Holds (b' :: others) pinned)
    (kept : ∀ c ∈ others, c.Kept mem mem') (moved : ∀ index < b.size,
      b'.byteAt mem' (front + index) = b.byteAt mem index)
    (size : b'.size = front + b.size)
    (own : ∀ c ∈ others, c.data = b'.data → b'.start.toNat + front ≤ c.start.toNat)
    (gap : b'.gap = b.gap) (frontRoom : b'.start.toNat + front ≤ b'.zeroAreaStart.toNat)
    (reach : b'.endOffset = b.endOffset ∨ b'.endOffset.toNat = b'.size) :
    Grown mem mem' b b' others pinned front 0 where
  holds := holds
  kept := kept
  size := size
  moved := moved
  own c member shared cell place := by
    have := own c member shared
    omega
  gap := gap
  frontRoom := frontRoom
  backRoom := (holds.formed b' List.mem_cons_self).end_le
  reach := reach.imp_left (congrArg UInt32.toNat)

theorem Grown.atBack {back : ℕ} (holds : mem'.Holds (b' :: others) pinned)
    (kept : ∀ c ∈ others, c.Kept mem mem') (moved : ∀ index < b.size,
      b'.byteAt mem' index = b.byteAt mem index)
    (size : b'.size = b.size + back)
    (own : ∀ c ∈ others, c.data = b'.data → c.blockEnd + back ≤ b'.blockEnd)
    (gap : b'.gap = b.gap) (backRoom : b'.zeroAreaEnd.toNat + back ≤ b'.endOffset.toNat)
    (reach : b'.endOffset.toNat = b.endOffset.toNat + back ∨ b'.endOffset.toNat = b'.size) :
    Grown mem mem' b b' others pinned 0 back where
  holds := holds
  kept := kept
  size := by omega
  moved index inside := by
    rw [Nat.zero_add]
    exact moved index inside
  own c member shared cell place := by
    have := own c member shared
    omega
  gap := gap
  frontRoom := (holds.formed b' List.mem_cons_self).start_le
  backRoom := backRoom
  reach := reach

theorem setDirtyStart_data (mem : Memory) (block : ℕ) (dirty : UInt32) (address : ℕ) :
    ((mem.setDirtyStart block dirty).data address).data = (mem.data address).data := by
  by_cases here : address = block
  · rw [here]
    simp [Memory.setDirtyStart]
  · rw [Memory.setDirtyStart, Memory.modify_of_ne here]

theorem setDirtyEnd_data (mem : Memory) (block : ℕ) (dirty : UInt32) (address : ℕ) :
    ((mem.setDirtyEnd block dirty).data address).data = (mem.data address).data := by
  by_cases here : address = block
  · rw [here]
    simp [Memory.setDirtyEnd]
  · rw [Memory.setDirtyEnd, Memory.modify_of_ne here]

theorem addAtStart_inPlace {start : UInt32} (holds : mem.Holds (b :: others) pinned)
    (room : b.roomAtStart mem start = true) :
    ∃ mem' b', b.addAtStart mem start = some (mem', b') ∧
      Grown mem mem' b b' others pinned start.toNat 0 ∧ b'.data = b.data := by
  have formed := holds.formed b List.mem_cons_self
  have first := formed.start_le
  have second := formed.zero_le
  have third := formed.end_le
  have whole := b.start.toNat_lt
  have amount := start.toNat_lt
  obtain ⟨ahead, sole⟩ := formed.clean (holds.count_pos List.mem_cons_self) room
  have lowered : (b.start - start).toNat + start.toNat = b.start.toNat := by
    simp only [UInt32.toNat_sub]
    omega
  have sharing : ∀ c ∈ others, c.data = b.data → b.start.toNat ≤ c.start.toNat := by
    intro c member shared
    rcases sole with once | reached
    · exact absurd shared (holds.alone once member)
    · rw [reached, ← shared]
      exact (holds.formed c (List.mem_cons_of_mem _ member)).dirtyStart_le
  let grown : Buffer := { b with start := b.start - start }.noteZeroArea
  have bytes := setDirtyStart_data mem b.data grown.start
  refine ⟨mem.setDirtyStart b.data grown.start, grown, ?_, ?_, rfl⟩
  · unfold addAtStart
    simp only [room, ↓reduceIte, guard, if_pos sole]
    rfl
  · refine Grown.atFront (holds.growFront (c := grown) rfl rfl rfl rfl ?_ sharing)
      (fun c _ => Kept.of_eq (bytes c.data)) ?_ ?_ ?_ rfl ?_ (.inl rfl)
    · change (b.start - start).toNat ≤ b.start.toNat
      omega
    · intro index inside
      have shifted : grown.byteAt mem (start.toNat + index) = b.byteAt mem index :=
        byteAt_shift b grown rfl lowered rfl rfl index
      rw [byteAt_congr (bytes grown.data), shifted]
    · change b.endOffset.toNat - (b.start - start).toNat =
        start.toNat + (b.endOffset.toNat - b.start.toNat)
      omega
    · intro c member shared
      exact lowered.le.trans (sharing c member shared)
    · exact lowered.le.trans first

theorem addAtStart_relocated {start : UInt32} (holds : mem.Holds (b :: others) pinned)
    (room : ¬ b.roomAtStart mem start = true) (reach : b.size + start.toNat < 2 ^ 32)
    (block : b.getInternalSize.toNat + start.toNat + 19 < 2 ^ 32) :
    ∃ mem' b', b.addAtStart mem start = some (mem', b') ∧
      Grown mem mem' b b' others pinned start.toNat 0 ∧ ∀ c ∈ others, c.data ≠ b'.data := by
  have formed := holds.formed b List.mem_cons_self
  have first := formed.start_le
  have second := formed.zero_le
  have third := formed.end_le
  have inner := formed.getInternalSize
  have newSize : (b.getInternalSize + start).toNat = b.getInternalSize.toNat + start.toNat := by
    rw [UInt32.toNat_add]
    omega
  obtain ⟨made, r, ran, moved⟩ := relocate_spec (b.getInternalSize + start) start holds
    (by omega) (by omega) (by omega)
  let grown : Buffer := { r with start := r.start - start }.noteZeroArea
  have begins : grown.start.toNat = 0 := by
    change (r.start - start).toNat = 0
    simp only [UInt32.toNat_sub, moved.start]
    omega
  have zeroStart : grown.zeroAreaStart.toNat = _ := moved.zeroAreaStart
  have zeroEnd : grown.zeroAreaEnd.toNat = _ := moved.zeroAreaEnd
  have last : grown.endOffset.toNat = _ := moved.endOffset
  have gap : grown.gap = b.gap := by
    simp only [Buffer.gap]
    omega
  have room' := moved.room
  have bytes : ∀ address, (((made.setDirtyStart grown.data grown.start).setDirtyEnd grown.data
      grown.endOffset).data address).data = (made.data address).data := fun address =>
    (setDirtyEnd_data _ _ _ address).trans (setDirtyStart_data _ _ _ address)
  unfold size at last
  have adopted := moved.holds.adopt (b := grown) moved.once (by omega) (by omega) (by omega)
    (by
      change _ ≤ (made.data r.data).size.toNat
      unfold blockEnd at inner ⊢
      rw [gap]
      omega)
  have apart : ∀ c ∈ others, c.data ≠ grown.data :=
    fun c member => moved.holds.unpinned moved.once member
  refine ⟨_, grown, ?_, Grown.atFront adopted ?_ ?_ ?_ ?_ gap ?_ (.inr ?_), apart⟩
  · unfold addAtStart
    rw [if_neg room]
    simp only [ran, Option.bind_eq_bind, Option.bind_some]
    rfl
  · intro c member
    exact (moved.kept c member).trans (Kept.of_eq (bytes c.data))
  · intro index inside
    have begins' : grown.start.toNat + start.toNat = r.start.toNat := by
      rw [begins, moved.start, Nat.zero_add]
    have shifted : grown.byteAt made (start.toNat + index) = r.byteAt made index :=
      byteAt_shift r grown rfl begins' rfl rfl index
    rw [byteAt_congr (bytes grown.data), shifted, moved.byteAt formed inside]
  · unfold size
    omega
  · intro c member shared
    exact absurd shared (apart c member)
  · omega
  · unfold size
    omega

theorem addAtStart_spec (start : UInt32) (holds : mem.Holds (b :: others) pinned)
    (fits : b.FitsAtStart mem start) :
    ∃ mem' b', b.addAtStart mem start = some (mem', b') ∧
      Grown mem mem' b b' others pinned start.toNat 0 ∧
      Settled (b.roomAtStart mem start) b b' others := by
  by_cases room : b.roomAtStart mem start = true
  · obtain ⟨mem', b', added, grown, stays⟩ := addAtStart_inPlace holds room
    exact ⟨mem', b', added, grown, by rwa [Settled, if_pos room]⟩
  · obtain ⟨reach, block⟩ := fits.resolve_left room
    obtain ⟨mem', b', added, grown, apart⟩ := addAtStart_relocated holds room reach block
    exact ⟨mem', b', added, grown, by rwa [Settled, if_neg room]⟩

theorem addAtEnd_inPlace {count : UInt32} (holds : mem.Holds (b :: others) pinned)
    (room : b.roomAtEnd mem count = true) (fits : b.endOffset.toNat + count.toNat < 2 ^ 32) :
    ∃ mem' b', b.addAtEnd mem count = some (mem', b') ∧
      Grown mem mem' b b' others pinned 0 count.toNat ∧ b'.data = b.data := by
  have formed := holds.formed b List.mem_cons_self
  have first := formed.start_le
  have second := formed.zero_le
  have third := formed.end_le
  obtain ⟨inside, sole⟩ := formed.cleanEnd (holds.count_pos List.mem_cons_self) fits room
  have raised : (b.endOffset + count).toNat = b.endOffset.toNat + count.toNat := by
    rw [UInt32.toNat_add]
    omega
  let grown : Buffer := { b with endOffset := b.endOffset + count }.noteZeroArea
  have reach : grown.blockEnd = b.blockEnd + count.toNat := by
    change (b.endOffset + count).toNat - b.gap = b.endOffset.toNat - b.gap + count.toNat
    unfold gap
    omega
  have bytes := setDirtyEnd_data mem b.data grown.endOffset
  refine ⟨mem.setDirtyEnd b.data grown.endOffset, grown, ?_, ?_, rfl⟩
  · unfold addAtEnd
    simp only [room, ↓reduceIte, guard, if_pos sole]
    rfl
  · refine Grown.atBack (holds.growBack (c := grown) rfl rfl first second ?_ ?_ ?_ ?_ ?_ sole)
      (fun c _ => Kept.of_eq (bytes c.data)) ?_ ?_ ?_ rfl ?_ (.inl raised)
    · change b.zeroAreaEnd.toNat ≤ (b.endOffset + count).toNat
      omega
    · rw [reach]
      exact inside
    · change b.endOffset.toNat ≤ (b.endOffset + count).toNat
      omega
    · omega
    · intro same
      have := congrArg UInt32.toNat same
      change (b.endOffset + count).toNat = b.endOffset.toNat at this
      omega
    · intro index inside
      exact byteAt_congr (b := grown) (bytes b.data) index
    · change (b.endOffset + count).toNat - b.start.toNat =
        b.endOffset.toNat - b.start.toNat + count.toNat
      omega
    · intro c member shared
      rw [reach]
      rcases sole with once | reached
      · exact absurd shared (holds.alone once member)
      · have := holds.leading c (List.mem_cons_of_mem _ member) b List.mem_cons_self shared reached
        omega
    · change b.zeroAreaEnd.toNat + count.toNat ≤ (b.endOffset + count).toNat
      omega

theorem addAtEnd_relocated {count : UInt32} (holds : mem.Holds (b :: others) pinned)
    (room : ¬ b.roomAtEnd mem count = true) (reach : b.size + count.toNat < 2 ^ 32)
    (block : b.getInternalSize.toNat + count.toNat + 19 < 2 ^ 32) :
    ∃ mem' b', b.addAtEnd mem count = some (mem', b') ∧
      Grown mem mem' b b' others pinned 0 count.toNat ∧ ∀ c ∈ others, c.data ≠ b'.data := by
  have formed := holds.formed b List.mem_cons_self
  have first := formed.start_le
  have second := formed.zero_le
  have third := formed.end_le
  have inner := formed.getInternalSize
  have newSize : (b.getInternalSize + count).toNat = b.getInternalSize.toNat + count.toNat := by
    rw [UInt32.toNat_add]
    omega
  obtain ⟨made, r, ran, moved⟩ := relocate_spec (b.getInternalSize + count) 0 holds (by omega)
    (by rw [newSize, inner, UInt32.toNat_zero]; omega) (by rw [UInt32.toNat_zero]; omega)
  rw [UInt32.toNat_zero] at moved
  let grown : Buffer := { r with endOffset := r.endOffset + count }.noteZeroArea
  have begins : grown.start.toNat = 0 := moved.start
  have zeroStart : grown.zeroAreaStart.toNat = _ := moved.zeroAreaStart
  have zeroEnd : grown.zeroAreaEnd.toNat = _ := moved.zeroAreaEnd
  have last : grown.endOffset.toNat = b.size + count.toNat := by
    change (r.endOffset + count).toNat = _
    rw [UInt32.toNat_add, moved.endOffset]
    omega
  have gap : grown.gap = b.gap := by
    simp only [Buffer.gap]
    omega
  have room' := moved.room
  have bytes : ∀ address, (((made.setDirtyStart grown.data grown.start).setDirtyEnd grown.data
      grown.endOffset).data address).data = (made.data address).data := fun address =>
    (setDirtyEnd_data _ _ _ address).trans (setDirtyStart_data _ _ _ address)
  unfold size at last
  have adopted := moved.holds.adopt (b := grown) moved.once (by omega) (by omega) (by omega)
    (by
      change _ ≤ (made.data r.data).size.toNat
      unfold blockEnd at inner ⊢
      rw [gap]
      omega)
  have apart : ∀ c ∈ others, c.data ≠ grown.data :=
    fun c member => moved.holds.unpinned moved.once member
  refine ⟨_, grown, ?_, Grown.atBack adopted ?_ ?_ ?_ ?_ gap ?_ (.inr ?_), apart⟩
  · unfold addAtEnd
    rw [if_neg room]
    simp only [ran, Option.bind_eq_bind, Option.bind_some]
    rfl
  · intro c member
    exact (moved.kept c member).trans (Kept.of_eq (bytes c.data))
  · intro index inside
    rw [byteAt_congr (bytes grown.data), ← moved.byteAt formed inside]
    rfl
  · unfold size
    omega
  · intro c member shared
    exact absurd shared (apart c member)
  · omega
  · unfold size
    omega

theorem addAtEnd_spec (count : UInt32) (holds : mem.Holds (b :: others) pinned)
    (fits : b.FitsAtEnd mem count) :
    ∃ mem' b', b.addAtEnd mem count = some (mem', b') ∧
      Grown mem mem' b b' others pinned 0 count.toNat ∧
      Settled (b.roomAtEnd mem count) b b' others := by
  unfold FitsAtEnd at fits
  by_cases room : b.roomAtEnd mem count = true
  · rw [if_pos room] at fits
    obtain ⟨mem', b', added, grown, stays⟩ := addAtEnd_inPlace holds room fits
    exact ⟨mem', b', added, grown, by rwa [Settled, if_pos room]⟩
  · rw [if_neg room] at fits
    obtain ⟨mem', b', added, grown, apart⟩ := addAtEnd_relocated holds room fits.1 fits.2
    exact ⟨mem', b', added, grown, by rwa [Settled, if_neg room]⟩

end Buffer

end FISim.Buffers
