import FISim.Buffers.Buffer
import Mathlib.Data.List.Count

/-!
What buffers that share blocks rely on.  A block counts its buffers, its dirty
marks enclose them, and a buffer that reaches the end mark reaches the last
byte that any buffer of the block has.  `pinned` are the blocks that an operation
holds before a buffer does.
-/

namespace FISim.Buffers

open Cells

namespace Buffer

def size (b : Buffer) : ℕ := b.endOffset.toNat - b.start.toNat

def gap (b : Buffer) : ℕ := b.zeroAreaEnd.toNat - b.zeroAreaStart.toNat

-- The end of the buffer's bytes in its block.
def blockEnd (b : Buffer) : ℕ := b.endOffset.toNat - b.gap

structure Formed (mem : Memory) (b : Buffer) : Prop where
  start_le : b.start.toNat ≤ b.zeroAreaStart.toNat
  zero_le : b.zeroAreaStart.toNat ≤ b.zeroAreaEnd.toNat
  end_le : b.zeroAreaEnd.toNat ≤ b.endOffset.toNat
  inside : b.blockEnd ≤ (mem.data b.data).size.toNat
  dirtyStart_le : (mem.data b.data).dirtyStart.toNat ≤ b.start.toNat
  le_dirtyEnd : b.endOffset.toNat ≤ (mem.data b.data).dirtyEnd.toNat

theorem Formed.congr {mem mem' : Memory} {b : Buffer} (formed : b.Formed mem)
    (size : (mem'.data b.data).size = (mem.data b.data).size)
    (first : (mem'.data b.data).dirtyStart = (mem.data b.data).dirtyStart)
    (last : (mem'.data b.data).dirtyEnd = (mem.data b.data).dirtyEnd) : b.Formed mem' where
  start_le := formed.start_le
  zero_le := formed.zero_le
  end_le := formed.end_le
  inside := size ▸ formed.inside
  dirtyStart_le := first ▸ formed.dirtyStart_le
  le_dirtyEnd := last ▸ formed.le_dirtyEnd

/-- The bytes of the block that are the buffer's are the same. -/
def Kept (mem mem' : Memory) (b : Buffer) : Prop :=
  ∀ index, b.start.toNat ≤ index → index < b.blockEnd →
    (mem'.data b.data).data index = (mem.data b.data).data index

def byteAt (mem : Memory) (b : Buffer) (offset : ℕ) : UInt8 :=
  let index := b.start.toNat + offset
  if index < b.zeroAreaStart.toNat then (mem.data b.data).data index
  else if index < b.zeroAreaEnd.toNat then 0
  else (mem.data b.data).data (index - b.gap)

theorem Kept.refl (mem : Memory) (b : Buffer) : b.Kept mem mem := fun _ _ _ => rfl

theorem Kept.trans {first second third : Memory} {b : Buffer} (before : b.Kept first second)
    (after : b.Kept second third) : b.Kept first third := by
  intro index lower upper
  rw [after index lower upper, before index lower upper]

theorem Kept.of_eq {mem mem' : Memory} {b : Buffer}
    (same : (mem'.data b.data).data = (mem.data b.data).data) : b.Kept mem mem' := by
  intro index _ _
  rw [same]

theorem Kept.byteAt {mem mem' : Memory} {b : Buffer} (kept : b.Kept mem mem')
    (formed : b.Formed mem) {offset : ℕ} (inside : offset < b.size) :
    b.byteAt mem' offset = b.byteAt mem offset := by
  have first := formed.start_le
  have second := formed.zero_le
  have third := formed.end_le
  unfold size at inside
  unfold Buffer.byteAt
  simp only []
  split
  · exact kept _ (by omega) (by unfold blockEnd gap; omega)
  · split
    · rfl
    · exact kept _ (by unfold gap; omega) (by unfold blockEnd gap; omega)

end Buffer

namespace Memory

structure Holds (mem : Memory) (live : List Buffer) (pinned : List ℕ) : Prop where
  formed : ∀ b ∈ live, b.Formed mem
  counted : ∀ address, (mem.data address).count =
    live.countP (fun b => b.data = address) + pinned.count address
  leading : ∀ b ∈ live, ∀ c ∈ live, b.data = c.data →
    c.endOffset = (mem.data c.data).dirtyEnd → b.blockEnd ≤ c.blockEnd
  allocated : ∀ address, 0 < (mem.data address).count → address < mem.next
  free : ∀ address ∈ mem.freeList, address < mem.next ∧ (mem.data address).count = 0
  freeNodup : mem.freeList.Nodup

variable {mem mem' : Memory} {b : Buffer} {live others : List Buffer} {pinned : List ℕ}
  {address : ℕ}

@[simp] theorem modify_self (change : Data → Data) :
    (mem.modify address change).data address = change (mem.data address) := by
  simp [modify]

theorem modify_of_ne {other : ℕ} (different : other ≠ address) (change : Data → Data) :
    (mem.modify address change).data other = mem.data other := by
  simp [modify, different]

@[simp] theorem modify_next (change : Data → Data) :
    (mem.modify address change).next = mem.next := rfl

@[simp] theorem modify_freeList (change : Data → Data) :
    (mem.modify address change).freeList = mem.freeList := rfl

theorem Holds.perm {live' : List Buffer} (holds : mem.Holds live pinned)
    (same : live.Perm live') : mem.Holds live' pinned where
  formed b member := holds.formed b (same.mem_iff.mpr member)
  counted address := by rw [holds.counted, same.countP_eq]
  leading b first c second := holds.leading b (same.mem_iff.mpr first) c (same.mem_iff.mpr second)
  allocated := holds.allocated
  free := holds.free
  freeNodup := holds.freeNodup

/-- Nothing but the bytes of the blocks and the statics that `Holds` does not speak of differ. -/
theorem Holds.congr (holds : mem.Holds live pinned)
    (same : ∀ address, (mem'.data address).count = (mem.data address).count ∧
      (mem'.data address).size = (mem.data address).size ∧
      (mem'.data address).dirtyStart = (mem.data address).dirtyStart ∧
      (mem'.data address).dirtyEnd = (mem.data address).dirtyEnd)
    (next : mem'.next = mem.next) (freeList : mem'.freeList = mem.freeList) :
    mem'.Holds live pinned where
  formed b member := by
    obtain ⟨-, size, first, last⟩ := same b.data
    exact (holds.formed b member).congr size first last
  counted address := by rw [(same address).1, holds.counted]
  leading b first c second shared reached := by
    rw [(same c.data).2.2.2] at reached
    exact holds.leading b first c second shared reached
  allocated address used := by
    rw [(same address).1] at used
    rw [next]
    exact holds.allocated address used
  free address member := by
    rw [freeList] at member
    rw [next, (same address).1]
    exact holds.free address member
  freeNodup := freeList ▸ holds.freeNodup

theorem Holds.count_pos (holds : mem.Holds live pinned) (member : b ∈ live) :
    0 < (mem.data b.data).count := by
  rw [holds.counted]
  have : 0 < live.countP fun c => c.data = b.data := by
    rw [List.countP_pos_iff]
    exact ⟨b, member, by simp⟩
  omega

theorem Holds.elsewhere (holds : mem.Holds live pinned) (unused : (mem.data address).count = 0)
    (member : b ∈ live) : b.data ≠ address := by
  rintro rfl
  have := holds.count_pos member
  omega

theorem Holds.alone (holds : mem.Holds (b :: others) pinned)
    (once : (mem.data b.data).count = 1) {c : Buffer} (member : c ∈ others) :
    c.data ≠ b.data := by
  intro shared
  have counted := holds.counted b.data
  rw [List.countP_cons_of_pos (by simp)] at counted
  have : 0 < others.countP fun c => c.data = b.data := by
    rw [List.countP_pos_iff]
    exact ⟨c, member, by simpa using shared⟩
  omega

theorem Holds.pin (holds : mem.Holds live pinned) (unused : (mem.data address).count = 0)
    (used : (mem'.data address).count = 1)
    (same : ∀ other, other ≠ address → mem'.data other = mem.data other)
    (later : mem.next ≤ mem'.next) (below : address < mem'.next)
    (fewer : mem'.freeList.Sublist mem.freeList) (taken : address ∉ mem'.freeList) :
    mem'.Holds live (address :: pinned) where
  formed b member := by
    have kept := same b.data (holds.elsewhere unused member)
    exact (holds.formed b member).congr (by rw [kept]) (by rw [kept]) (by rw [kept])
  counted other := by
    by_cases here : other = address
    · subst here
      have counted := holds.counted other
      rw [used, List.count_cons_self]
      omega
    · rw [same other here, holds.counted, List.count_cons_of_ne (Ne.symm here)]
  leading b first c second shared reached := by
    rw [same c.data (holds.elsewhere unused second)] at reached
    exact holds.leading b first c second shared reached
  allocated other positive := by
    by_cases here : other = address
    · exact here ▸ below
    · rw [same other here] at positive
      exact (holds.allocated other positive).trans_le later
  free other member := by
    have different : other ≠ address := by
      rintro rfl
      exact taken member
    rw [same other different]
    obtain ⟨before, zero⟩ := holds.free other (fewer.subset member)
    exact ⟨before.trans_le later, zero⟩
  freeNodup := holds.freeNodup.sublist fewer

theorem Holds.create (holds : mem.Holds live pinned) (dataSize : UInt32)
    (fits : dataSize.toNat + 19 < 2 ^ 32) :
    ∃ mem' address, mem.create dataSize = some (mem', address) ∧
      mem'.Holds live (address :: pinned) ∧ (mem.data address).count = 0 ∧
      (mem'.data address).count = 1 ∧
      (∀ other, other ≠ address → mem'.data other = mem.data other) ∧
      dataSize.toNat ≤ (mem'.data address).size.toNat := by
  unfold Memory.create
  split
  · have positive : dataSize.toNat ≤ (if dataSize = 0 then 1 else dataSize).toNat := by
      split
      · rename_i zero
        simp [zero]
      · exact Nat.le_refl _
    have room : (if dataSize = 0 then 1 else dataSize).toNat - 1 + sizeofData < 2 ^ 32 := by
      unfold sizeofData
      split
      · decide
      · omega
    have unused : (mem.data mem.next).count = 0 := by
      by_contra used
      exact Nat.lt_irrefl _ (holds.allocated mem.next (Nat.pos_of_ne_zero used))
    unfold allocate
    simp only [room, ↓reduceIte, Option.some.injEq, Prod.mk.injEq]
    refine ⟨_, _, ⟨rfl, rfl⟩, ?_, unused, by simp, ?_, by simpa using positive⟩
    · refine holds.pin unused (by simp) ?_ (Nat.le_succ _) (Nat.lt_succ_self _)
        (List.nil_sublist _) (by simp)
      intro other different
      exact Function.update_of_ne different _ _
    · intro other different
      exact Function.update_of_ne different _ _
  · rename_i address rest found
    have suffix : (address :: rest).Sublist mem.freeList := by
      rw [← found]
      exact List.dropWhile_sublist _
    have large : dataSize.toNat ≤ (mem.data address).size.toNat := by
      have failed := List.head?_dropWhile_not (fun address => decide
        ((mem.data address).size < dataSize)) mem.freeList
      rw [found] at failed
      simp only [List.head?_cons, decide_eq_false_iff_not, UInt32.lt_iff_toNat_lt] at failed
      omega
    obtain ⟨before, unused⟩ := holds.free address (suffix.subset (by simp))
    have distinct := holds.freeNodup.sublist suffix
    refine ⟨_, _, rfl, ?_, unused, by simp, ?_, by simpa using large⟩
    · refine holds.pin unused (by simp) ?_ (Nat.le_refl _) before ?_ ?_
      · intro other different
        exact Function.update_of_ne different _ _
      · exact (List.sublist_cons_self _ _).trans suffix
      · exact (List.nodup_cons.mp distinct).1
    · intro other different
      exact Function.update_of_ne different _ _

theorem release_data (mem : Memory) (address other : ℕ) :
    (mem.release address).data other =
      if other = address then { mem.data address with count := (mem.data address).count - 1 }
      else mem.data other := by
  have recycled : ∀ (mem : Memory) (address : ℕ), (mem.recycle address).data = mem.data := by
    intro mem address
    unfold recycle
    simp only []
    split
    · rfl
    · rfl
  unfold release
  simp only []
  split
  · rw [recycled]
    by_cases here : other = address
    · simp [here]
    · rw [modify_of_ne here, if_neg here]
  · by_cases here : other = address
    · simp [here]
    · rw [modify_of_ne here, if_neg here]

theorem release_bytes (mem : Memory) (address other : ℕ) :
    ((mem.release address).data other).data = (mem.data other).data := by
  rw [release_data]
  split
  · rename_i here
    rw [here]
  · rfl

theorem release_next (mem : Memory) (address : ℕ) : (mem.release address).next = mem.next := by
  unfold release recycle
  simp only []
  split
  · split <;> rfl
  · rfl

theorem release_freeList (mem : Memory) (address : ℕ) :
    (mem.release address).freeList = mem.freeList ∨
      ((mem.data address).count - 1 = 0 ∧
        (mem.release address).freeList = address :: mem.freeList) := by
  unfold release recycle
  simp only [modify_self, modify_freeList]
  split
  · rename_i zero
    split
    · exact .inl rfl
    · exact .inr ⟨zero, rfl⟩
  · exact .inl rfl

theorem Holds.release (holds : mem.Holds (b :: live) pinned) :
    (mem.release b.data).Holds live pinned := by
  have used := holds.count_pos (List.mem_cons_self (a := b) (l := live))
  have marks : ∀ other, ((mem.release b.data).data other).size = (mem.data other).size ∧
      ((mem.release b.data).data other).dirtyStart = (mem.data other).dirtyStart ∧
      ((mem.release b.data).data other).dirtyEnd = (mem.data other).dirtyEnd := by
    intro other
    rw [release_data]
    split
    · rename_i here
      rw [here]
      exact ⟨rfl, rfl, rfl⟩
    · exact ⟨rfl, rfl, rfl⟩
  constructor
  · intro c member
    obtain ⟨size, first, last⟩ := marks c.data
    exact (holds.formed c (List.mem_cons_of_mem _ member)).congr size first last
  · intro other
    have counted := holds.counted other
    rw [release_data]
    by_cases here : other = b.data
    · rw [here, List.countP_cons_of_pos (by simp)] at counted
      rw [if_pos here, here]
      simp only []
      omega
    · rw [List.countP_cons_of_neg (by simpa using Ne.symm here)] at counted
      rw [if_neg here, counted]
  · intro c first d second shared reached
    rw [(marks d.data).2.2] at reached
    exact holds.leading c (List.mem_cons_of_mem _ first) d (List.mem_cons_of_mem _ second) shared
      reached
  · intro other positive
    rw [release_next]
    refine holds.allocated other ?_
    rw [release_data] at positive
    split at positive
    · rename_i here
      exact here ▸ used
    · exact positive
  · intro other member
    rw [release_next, release_data]
    rcases release_freeList mem b.data with same | ⟨zero, grown⟩
    · rw [same] at member
      obtain ⟨before, unused⟩ := holds.free other member
      have different : other ≠ b.data := by
        rintro rfl
        omega
      rw [if_neg different]
      exact ⟨before, unused⟩
    · rw [grown] at member
      rcases List.mem_cons.mp member with rfl | old
      · exact ⟨holds.allocated _ used, by simpa using zero⟩
      · obtain ⟨before, unused⟩ := holds.free other old
        have different : other ≠ b.data := by
          rintro rfl
          omega
        rw [if_neg different]
        exact ⟨before, unused⟩
  · rcases release_freeList mem b.data with same | ⟨-, grown⟩
    · rw [same]
      exact holds.freeNodup
    · rw [grown, List.nodup_cons]
      refine ⟨?_, holds.freeNodup⟩
      intro member
      have := (holds.free _ member).2
      omega

theorem Holds.unpinned (holds : mem.Holds live (address :: pinned))
    (once : (mem.data address).count = 1) {c : Buffer} (member : c ∈ live) :
    c.data ≠ address := by
  intro shared
  have counted := holds.counted address
  rw [List.count_cons_self] at counted
  have : 0 < live.countP fun c => c.data = address := by
    rw [List.countP_pos_iff]
    exact ⟨c, member, by simpa using shared⟩
  omega

theorem Holds.recommend (holds : mem.Holds live pinned) (start : UInt32) :
    (mem.recommend start).Holds live pinned :=
  holds.congr (fun _ => ⟨rfl, rfl, rfl, rfl⟩) rfl rfl

theorem Holds.adopt (holds : mem.Holds live (b.data :: pinned))
    (once : (mem.data b.data).count = 1) (start_le : b.start.toNat ≤ b.zeroAreaStart.toNat)
    (zero_le : b.zeroAreaStart.toNat ≤ b.zeroAreaEnd.toNat)
    (end_le : b.zeroAreaEnd.toNat ≤ b.endOffset.toNat)
    (inside : b.blockEnd ≤ (mem.data b.data).size.toNat) :
    ((mem.setDirtyStart b.data b.start).setDirtyEnd b.data b.endOffset).Holds (b :: live)
      pinned := by
  have marked : ((mem.setDirtyStart b.data b.start).setDirtyEnd b.data b.endOffset).data b.data =
      { mem.data b.data with dirtyStart := b.start, dirtyEnd := b.endOffset } := by
    simp [setDirtyStart, setDirtyEnd]
  have elsewhere : ∀ other, other ≠ b.data →
      ((mem.setDirtyStart b.data b.start).setDirtyEnd b.data b.endOffset).data other =
        mem.data other := by
    intro other different
    rw [setDirtyEnd, modify_of_ne different, setDirtyStart, modify_of_ne different]
  constructor
  · intro c member
    rcases List.mem_cons.mp member with rfl | old
    · exact ⟨start_le, zero_le, end_le, by rw [marked]; exact inside, by rw [marked],
        by rw [marked]⟩
    · have kept := elsewhere c.data (holds.unpinned once old)
      exact (holds.formed c old).congr (by rw [kept]) (by rw [kept]) (by rw [kept])
  · intro other
    have counted := holds.counted other
    by_cases here : other = b.data
    · subst here
      rw [List.count_cons_self] at counted
      rw [marked, List.countP_cons_of_pos (by simp)]
      simp only []
      omega
    · rw [List.count_cons_of_ne (Ne.symm here)] at counted
      rw [elsewhere other here, counted, List.countP_cons_of_neg (by simpa using Ne.symm here)]
  · intro c first d second shared reached
    rcases List.mem_cons.mp second with rfl | later
    · rcases List.mem_cons.mp first with rfl | before
      · exact Nat.le_refl _
      · exact absurd shared (holds.unpinned once before)
    · rcases List.mem_cons.mp first with rfl | before
      · exact absurd shared.symm (holds.unpinned once later)
      · rw [elsewhere d.data (holds.unpinned once later)] at reached
        exact holds.leading c before d later shared reached
  · intro other positive
    change other < mem.next
    by_cases here : other = b.data
    · refine holds.allocated other ?_
      rw [here, once]
      omega
    · rw [elsewhere other here] at positive
      exact holds.allocated other positive
  · intro other member
    change other < mem.next ∧ _
    obtain ⟨before, unused⟩ := holds.free other member
    have different : other ≠ b.data := by
      rintro rfl
      omega
    rw [elsewhere other different]
    exact ⟨before, unused⟩
  · exact holds.freeNodup

theorem Holds.share {c : Buffer} (holds : mem.Holds live pinned) (member : b ∈ live)
    (data : c.data = b.data) (formed : c.Formed mem) (ends : c.endOffset = b.endOffset)
    (reaches : c.blockEnd = b.blockEnd) : (mem.share b.data).Holds (c :: live) pinned := by
  have marks : ∀ other, ((mem.share b.data).data other).size = (mem.data other).size ∧
      ((mem.share b.data).data other).dirtyStart = (mem.data other).dirtyStart ∧
      ((mem.share b.data).data other).dirtyEnd = (mem.data other).dirtyEnd := by
    intro other
    by_cases here : other = b.data
    · rw [here]
      simp [Memory.share]
    · rw [Memory.share, modify_of_ne here]
      exact ⟨rfl, rfl, rfl⟩
  have counts : ∀ other, ((mem.share b.data).data other).count =
      (mem.data other).count + if other = b.data then 1 else 0 := by
    intro other
    by_cases here : other = b.data
    · rw [here]
      simp [Memory.share]
    · rw [Memory.share, modify_of_ne here, if_neg here]
      rfl
  have used := holds.count_pos member
  constructor
  · intro d inside
    obtain ⟨size, first, last⟩ := marks d.data
    rcases List.mem_cons.mp inside with rfl | old
    · exact formed.congr size first last
    · exact (holds.formed d old).congr size first last
  · intro other
    rw [counts, holds.counted, List.countP_cons, data]
    by_cases here : other = b.data
    · simp only [here, ↓reduceIte, decide_true]
      omega
    · rw [if_neg here, if_neg (by simpa using Ne.symm here)]
      omega
  · intro d first e second shared reached
    rw [(marks e.data).2.2] at reached
    rcases List.mem_cons.mp first with rfl | before
    · rcases List.mem_cons.mp second with rfl | later
      · exact Nat.le_refl _
      · rw [reaches]
        exact holds.leading b member e later (data.symm.trans shared) reached
    · rcases List.mem_cons.mp second with rfl | later
      · rw [reaches]
        rw [ends, data] at reached
        exact holds.leading d before b member (shared.trans data) reached
      · exact holds.leading d before e later shared reached
  · intro other positive
    change other < mem.next
    refine holds.allocated other ?_
    rw [counts] at positive
    by_cases here : other = b.data
    · exact here ▸ used
    · rw [if_neg here] at positive
      exact positive
  · intro other inside
    change other < mem.next ∧ _
    obtain ⟨before, unused⟩ := holds.free other inside
    have different : other ≠ b.data := by
      rintro rfl
      omega
    rw [counts, if_neg different]
    exact ⟨before, unused⟩
  · exact holds.freeNodup

theorem Holds.shrink {c : Buffer} (holds : mem.Holds (b :: others) pinned)
    (data : c.data = b.data) (formed : c.Formed mem) (ends : c.blockEnd ≤ b.blockEnd)
    (leads : c.endOffset = (mem.data b.data).dirtyEnd →
      b.endOffset = (mem.data b.data).dirtyEnd ∧ b.blockEnd = c.blockEnd) :
    mem.Holds (c :: others) pinned where
  formed d member := by
    rcases List.mem_cons.mp member with rfl | old
    · exact formed
    · exact holds.formed d (List.mem_cons_of_mem _ old)
  counted other := by rw [holds.counted, List.countP_cons, List.countP_cons, data]
  leading d first e second shared reached := by
    rcases List.mem_cons.mp second with rfl | later
    · rw [data] at reached
      obtain ⟨whole, same⟩ := leads reached
      rw [← same]
      rcases List.mem_cons.mp first with rfl | before
      · exact ends
      · exact holds.leading d (List.mem_cons_of_mem _ before) b List.mem_cons_self
          (shared.trans data) whole
    · rcases List.mem_cons.mp first with rfl | before
      · exact ends.trans (holds.leading b List.mem_cons_self e (List.mem_cons_of_mem _ later)
          (data.symm.trans shared) reached)
      · exact holds.leading d (List.mem_cons_of_mem _ before) e (List.mem_cons_of_mem _ later)
          shared reached
  allocated := holds.allocated
  free := holds.free
  freeNodup := holds.freeNodup

theorem Holds.growFront {c : Buffer} (holds : mem.Holds (b :: others) pinned)
    (data : c.data = b.data) (zeroAreaStart : c.zeroAreaStart = b.zeroAreaStart)
    (zeroAreaEnd : c.zeroAreaEnd = b.zeroAreaEnd) (endOffset : c.endOffset = b.endOffset)
    (lower : c.start.toNat ≤ b.start.toNat)
    (sharing : ∀ d ∈ others, d.data = b.data → b.start.toNat ≤ d.start.toNat) :
    (mem.setDirtyStart b.data c.start).Holds (c :: others) pinned := by
  have formed := holds.formed b List.mem_cons_self
  have reach : c.blockEnd = b.blockEnd := by
    unfold Buffer.blockEnd Buffer.gap
    rw [zeroAreaStart, zeroAreaEnd, endOffset]
  have marks : ∀ other, ((mem.setDirtyStart b.data c.start).data other).count =
        (mem.data other).count ∧
      ((mem.setDirtyStart b.data c.start).data other).size = (mem.data other).size ∧
      ((mem.setDirtyStart b.data c.start).data other).dirtyEnd = (mem.data other).dirtyEnd := by
    intro other
    by_cases here : other = b.data
    · rw [here]
      simp [setDirtyStart]
    · rw [setDirtyStart, modify_of_ne here]
      exact ⟨rfl, rfl, rfl⟩
  have starts : ((mem.setDirtyStart b.data c.start).data b.data).dirtyStart = c.start := by
    simp [setDirtyStart]
  constructor
  · intro d member
    rcases List.mem_cons.mp member with rfl | old
    · obtain ⟨-, size, last⟩ := marks d.data
      have := formed.start_le
      refine ⟨by rw [zeroAreaStart]; omega, by rw [zeroAreaStart, zeroAreaEnd]; exact formed.zero_le,
        by rw [zeroAreaEnd, endOffset]; exact formed.end_le, ?_, by rw [data, starts], ?_⟩
      · rw [size, reach, data]
        exact formed.inside
      · rw [last, endOffset, data]
        exact formed.le_dirtyEnd
    · have before := holds.formed d (List.mem_cons_of_mem _ old)
      by_cases here : d.data = b.data
      · obtain ⟨-, size, last⟩ := marks d.data
        refine ⟨before.start_le, before.zero_le, before.end_le, by rw [size]; exact before.inside, ?_,
          by rw [last]; exact before.le_dirtyEnd⟩
        rw [here, starts]
        exact lower.trans (sharing d old here)
      · have kept : (mem.setDirtyStart b.data c.start).data d.data = mem.data d.data :=
          modify_of_ne here _
        exact before.congr (by rw [kept]) (by rw [kept]) (by rw [kept])
  · intro other
    rw [(marks other).1, holds.counted, List.countP_cons, List.countP_cons, data]
  · intro d first e second shared reached
    rw [(marks e.data).2.2] at reached
    rcases List.mem_cons.mp first with rfl | before
    · rcases List.mem_cons.mp second with rfl | later
      · exact Nat.le_refl _
      · rw [reach]
        exact holds.leading b List.mem_cons_self e (List.mem_cons_of_mem _ later)
          (data.symm.trans shared) reached
    · rcases List.mem_cons.mp second with rfl | later
      · rw [reach]
        rw [endOffset, data] at reached
        exact holds.leading d (List.mem_cons_of_mem _ before) b List.mem_cons_self
          (shared.trans data) reached
      · exact holds.leading d (List.mem_cons_of_mem _ before) e (List.mem_cons_of_mem _ later)
          shared reached
  · intro other positive
    rw [(marks other).1] at positive
    exact holds.allocated other positive
  · intro other member
    rw [(marks other).1]
    exact holds.free other member
  · exact holds.freeNodup

theorem Holds.growBack {c : Buffer} (holds : mem.Holds (b :: others) pinned)
    (data : c.data = b.data) (start : c.start = b.start)
    (start_le : c.start.toNat ≤ c.zeroAreaStart.toNat)
    (zero_le : c.zeroAreaStart.toNat ≤ c.zeroAreaEnd.toNat)
    (end_le : c.zeroAreaEnd.toNat ≤ c.endOffset.toNat)
    (inside : c.blockEnd ≤ (mem.data b.data).size.toNat)
    (upper : b.endOffset.toNat ≤ c.endOffset.toNat) (reach : b.blockEnd ≤ c.blockEnd)
    (same : c.endOffset = b.endOffset → c.blockEnd = b.blockEnd)
    (sole : (mem.data b.data).count = 1 ∨ b.endOffset = (mem.data b.data).dirtyEnd) :
    (mem.setDirtyEnd b.data c.endOffset).Holds (c :: others) pinned := by
  have formed := holds.formed b List.mem_cons_self
  have marks : ∀ other, ((mem.setDirtyEnd b.data c.endOffset).data other).count =
        (mem.data other).count ∧
      ((mem.setDirtyEnd b.data c.endOffset).data other).size = (mem.data other).size ∧
      ((mem.setDirtyEnd b.data c.endOffset).data other).dirtyStart =
        (mem.data other).dirtyStart := by
    intro other
    by_cases here : other = b.data
    · rw [here]
      simp [setDirtyEnd]
    · rw [setDirtyEnd, modify_of_ne here]
      exact ⟨rfl, rfl, rfl⟩
  have ends : ((mem.setDirtyEnd b.data c.endOffset).data b.data).dirtyEnd = c.endOffset := by
    simp [setDirtyEnd]
  have kept : ∀ other, other ≠ b.data →
      (mem.setDirtyEnd b.data c.endOffset).data other = mem.data other :=
    fun other different => modify_of_ne different _
  have last : ∀ d ∈ others, d.data = b.data → b.endOffset = (mem.data b.data).dirtyEnd := by
    intro d member shared
    rcases sole with once | reached
    · exact absurd shared (holds.alone once member)
    · exact reached
  constructor
  · intro d member
    rcases List.mem_cons.mp member with rfl | old
    · refine ⟨start_le, zero_le, end_le, ?_, ?_, by rw [data, ends]⟩
      · rw [(marks d.data).2.1, data]
        exact inside
      · rw [(marks d.data).2.2, start, data]
        exact formed.dirtyStart_le
    · have before := holds.formed d (List.mem_cons_of_mem _ old)
      by_cases here : d.data = b.data
      · obtain ⟨-, size, first⟩ := marks d.data
        refine ⟨before.start_le, before.zero_le, before.end_le, by rw [size]; exact before.inside,
          by rw [first]; exact before.dirtyStart_le, ?_⟩
        rw [here, ends]
        have below := before.le_dirtyEnd
        rw [here, ← last d old here] at below
        exact below.trans upper
      · exact before.congr (by rw [kept _ here]) (by rw [kept _ here]) (by rw [kept _ here])
  · intro other
    rw [(marks other).1, holds.counted, List.countP_cons, List.countP_cons, data]
  · intro d first e second shared reached
    by_cases here : e.data = b.data
    · rw [here, ends] at reached
      rcases List.mem_cons.mp second with rfl | later
      · rcases List.mem_cons.mp first with rfl | before
        · exact Nat.le_refl _
        · exact (holds.leading d (List.mem_cons_of_mem _ before) b List.mem_cons_self
            (shared.trans here) (last d before (shared.trans here))).trans reach
      · have whole := last e later here
        have below := (holds.formed e (List.mem_cons_of_mem _ later)).le_dirtyEnd
        rw [here, ← whole] at below
        have level : c.endOffset = b.endOffset :=
          UInt32.toNat_inj.mp (Nat.le_antisymm (reached ▸ below) upper)
        have leads : e.endOffset = (mem.data e.data).dirtyEnd := by
          rw [here, reached, level]
          exact whole
        rcases List.mem_cons.mp first with rfl | before
        · rw [same level]
          exact holds.leading b List.mem_cons_self e (List.mem_cons_of_mem _ later) here.symm leads
        · exact holds.leading d (List.mem_cons_of_mem _ before) e (List.mem_cons_of_mem _ later)
            shared leads
    · rw [kept _ here] at reached
      rcases List.mem_cons.mp second with rfl | later
      · exact absurd data here
      · rcases List.mem_cons.mp first with rfl | before
        · exact absurd (shared.symm.trans data) here
        · exact holds.leading d (List.mem_cons_of_mem _ before) e (List.mem_cons_of_mem _ later)
            shared reached
  · intro other positive
    rw [(marks other).1] at positive
    exact holds.allocated other positive
  · intro other member
    rw [(marks other).1]
    exact holds.free other member
  · exact holds.freeNodup

theorem write_spec {index : ℕ} {bytes : List UInt8}
    (inside : bytes = [] ∨ index + bytes.length ≤ (mem.data address).size.toNat) :
    mem.write address index bytes = some (mem.modify address fun data =>
      { data with data := patch data.data index bytes }) := if_pos inside

theorem Holds.patch (holds : mem.Holds live pinned) (address index : ℕ) (bytes : List UInt8) :
    (mem.modify address fun data =>
      { data with data := Cells.patch data.data index bytes }).Holds live pinned := by
  refine holds.congr ?_ rfl rfl
  intro other
  by_cases here : other = address
  · subst here
    simp
  · rw [modify_of_ne here]
    exact ⟨rfl, rfl, rfl, rfl⟩

theorem kept_patch {index : ℕ} {bytes : List UInt8} {c : Buffer}
    (apart : c.data = address → ∀ cell, index ≤ cell → cell < index + bytes.length →
      cell < c.start.toNat ∨ c.blockEnd ≤ cell) :
    c.Kept mem (mem.modify address fun data =>
      { data with data := Cells.patch data.data index bytes }) := by
  intro cell lower upper
  by_cases here : c.data = address
  · rw [here, modify_self]
    refine patch_outside ?_
    by_contra inside
    have := apart here cell (by omega) (by omega)
    omega
  · rw [modify_of_ne here]

end Memory

end FISim.Buffers
