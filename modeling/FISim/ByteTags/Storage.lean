import FISim.ByteTags.Spans

/-!
The blocks of byte tags: what allocating, sharing and giving back do to the logs
that lists have on them.
-/

namespace FISim.ByteTags

open Cells SharedLogs

namespace Memory

/-- Blocks are counted and marked as `SharedLogs` asks, and those that are not in use are known. -/
structure Holds (mem : Memory) (live : List Log) : Prop where
  logs : SharedLogs.Holds mem.data live
  fresh : ∀ address, mem.next ≤ address → (mem.data address).count = 0
  free : ∀ address ∈ mem.freeList, address < mem.next ∧ (mem.data address).count = 0
  freeNodup : mem.freeList.Nodup

def Kept (mem mem' : Memory) (live : List Log) : Prop :=
  ∀ log ∈ live, log.contents mem'.data = log.contents mem.data

variable {mem mem' : Memory} {live others : List Log} {log : Log} {address : ℕ}

@[simp] theorem modify_self (change : Block UInt8 → Block UInt8) :
    (mem.modify address change).data address = change (mem.data address) := by
  simp [modify]

theorem modify_of_ne {other : ℕ} (different : other ≠ address)
    (change : Block UInt8 → Block UInt8) :
    (mem.modify address change).data other = mem.data other := by
  simp [modify, different]

theorem modify_modify (first second : Block UInt8 → Block UInt8) :
    (mem.modify address first).modify address second =
      mem.modify address fun block => second (first block) := by
  simp [modify]

theorem modify_id : mem.modify address (fun block => block) = mem := by
  simp [modify]

@[simp] theorem deallocate_data (mem : Memory) (address : ℕ) :
    (mem.deallocate (some address)).data = (mem.modify address fun data =>
      { data with count := data.count - 1 }).data := by
  simp only [deallocate]
  split
  · split <;> rfl
  · rfl

@[simp] theorem deallocate_next (mem : Memory) (address : ℕ) :
    (mem.deallocate (some address)).next = mem.next := by
  simp only [deallocate]
  split
  · split <;> rfl
  · rfl

theorem deallocate_maxSize (mem : Memory) (address : ℕ) :
    (mem.deallocate (some address)).maxSize = max mem.maxSize (mem.data address).size := by
  simp only [deallocate]
  split
  · split <;> rfl
  · rfl

theorem deallocate_freeList (mem : Memory) (address : ℕ) :
    (mem.deallocate (some address)).freeList =
      if (mem.data address).count - 1 = 0 ∧ ¬ (1000 < mem.freeList.length ∨
        (mem.data address).size < max mem.maxSize (mem.data address).size) then
          address :: mem.freeList
      else mem.freeList := by
  simp only [deallocate, modify_self]
  split
  · rename_i last
    split
    · rename_i full
      rw [if_neg (fun both => both.2 full)]
      rfl
    · rename_i notFull
      rw [if_pos ⟨last, notFull⟩]
      rfl
  · rename_i others
    rw [if_neg (fun both => others both.1)]
    rfl

theorem deallocate_modify {other : ℕ} (different : other ≠ address)
    (change : Block UInt8 → Block UInt8) :
    (mem.modify address change).deallocate (some other) =
      (mem.deallocate (some other)).modify address change := by
  have same : (mem.modify address change).data other = mem.data other :=
    modify_of_ne different change
  apply Memory.ext
  · rw [deallocate_data]
    simp only [modify, deallocate_data, Function.update_of_ne different,
      Function.update_of_ne (Ne.symm different)]
    exact Function.update_comm (Ne.symm different) _ _ _
  · rw [deallocate_next]
    exact (deallocate_next mem other).symm
  · rw [deallocate_freeList, same]
    exact (deallocate_freeList mem other).symm
  · rw [deallocate_maxSize, same]
    exact (deallocate_maxSize mem other).symm

theorem Kept.refl (mem : Memory) (live : List Log) : mem.Kept mem live := fun _ _ => rfl

theorem Kept.trans {first second third : Memory} (before : first.Kept second live)
    (after : second.Kept third live) : first.Kept third live :=
  fun log member => (after log member).trans (before log member)

theorem Kept.of_data (same : ∀ address, (mem'.data address).data = (mem.data address).data) :
    mem.Kept mem' live := fun log _ => contents_congr (same log.address)

theorem Kept.subset {fewer : List Log} (kept : mem.Kept mem' live) (within : fewer ⊆ live) :
    mem.Kept mem' fewer := fun log member => kept log (within member)

namespace Holds

theorem perm {live' : List Log} (holds : mem.Holds live) (same : live.Perm live') :
    mem.Holds live' :=
  ⟨holds.logs.perm same, holds.fresh, holds.free, holds.freeNodup⟩

theorem address_lt (holds : mem.Holds live) (member : log ∈ live) : log.address < mem.next := by
  have used := holds.logs.count_pos member
  by_contra beyond
  have unused := holds.fresh log.address (Nat.le_of_not_lt beyond)
  omega

theorem allocate (holds : mem.Holds live) (size : ℕ) :
    ∃ mem' address, mem.allocate size = (mem', address) ∧
      mem'.Holds (⟨address, 0⟩ :: live) ∧ mem.Kept mem' live ∧ size ≤ (mem'.data address).size ∧
      (mem'.data address).count = 1 ∧ (∀ log ∈ live, log.address ≠ address) := by
  unfold Memory.allocate
  split
  · rename_i none
    have unused := holds.fresh mem.next (Nat.le_refl _)
    have apart : ∀ other, other ≠ mem.next → (mem.modify mem.next fun data =>
        { data with size, count := 1, dirty := 0 }).data other = mem.data other :=
      fun other different => modify_of_ne different _
    refine ⟨_, _, rfl, ⟨?_, ?_, by simp, List.nodup_nil⟩, ?_, ?_, ?_, ?_⟩
    · refine holds.logs.start unused ?_ (Nat.zero_le _) ?_ rfl apart
      · simp
      · simp
    · intro address beyond
      rw [apart address (by simp only at beyond; omega)]
      exact holds.fresh address (by simp only at beyond; omega)
    · intro log member
      refine contents_congr ?_
      simp only [apart log.address (holds.logs.elsewhere unused member)]
    · simp
    · simp
    · exact fun log member => holds.logs.elsewhere unused member
  · rename_i address rest found
    have suffix := List.dropWhile_suffix
      (l := mem.freeList) fun address => decide ((mem.data address).size < size)
    rw [found] at suffix
    obtain ⟨below, unused⟩ := holds.free address (suffix.mem List.mem_cons_self)
    have nodup := holds.freeNodup.sublist suffix.sublist
    rw [List.nodup_cons] at nodup
    have enough : size ≤ (mem.data address).size := by
      have stopped := List.head?_dropWhile_not (fun address => decide ((mem.data address).size < size))
        mem.freeList
      rw [found, List.head?_cons] at stopped
      simpa using stopped
    have apart : ∀ other, other ≠ address → (mem.modify address fun data =>
        { data with count := 1, dirty := 0 }).data other = mem.data other :=
      fun other different => modify_of_ne different _
    refine ⟨_, _, rfl, ⟨?_, ?_, ?_, nodup.2⟩, ?_, ?_, ?_, ?_⟩
    · refine holds.logs.start unused ?_ (Nat.zero_le _) ?_ rfl apart
      · simp
      · simp
    · intro other beyond
      rw [apart other (by simp only [modify] at beyond; omega)]
      exact holds.fresh other beyond
    · intro other member
      obtain ⟨lower, zero⟩ := holds.free other (suffix.mem (List.mem_cons_of_mem _ member))
      refine ⟨lower, ?_⟩
      rw [apart other (fun same => nodup.1 (same ▸ member))]
      exact zero
    · intro log member
      refine contents_congr ?_
      simp only [apart log.address (holds.logs.elsewhere unused member)]
    · simpa using enough
    · simp
    · exact fun log member => holds.logs.elsewhere unused member

theorem share (holds : mem.Holds live) (member : log ∈ live) :
    (mem.share (some log.address)).Holds (log :: live) ∧
      mem.Kept (mem.share (some log.address)) (log :: live) := by
  have apart : ∀ other, other ≠ log.address → (mem.share (some log.address)).data other =
      mem.data other := by
    intro other different
    simp only [Memory.share, modify_of_ne different]
  have below := holds.address_lt member
  refine ⟨⟨?_, ?_, ?_, holds.freeNodup⟩, ?_⟩
  · exact holds.logs.share member rfl (Nat.le_refl _) (by simp [Memory.share])
      (by simp [Memory.share]) (by simp [Memory.share]) apart
  · intro address beyond
    change mem.next ≤ address at beyond
    rw [apart address (by omega)]
    exact holds.fresh address beyond
  · intro address free
    obtain ⟨lower, zero⟩ := holds.free address free
    refine ⟨lower, ?_⟩
    rw [apart address (Ne.symm (holds.logs.elsewhere zero member)), zero]
  · apply Kept.of_data
    intro address
    by_cases here : address = log.address
    · subst here
      simp [Memory.share]
    · rw [apart address here]

theorem deallocate (holds : mem.Holds (log :: others)) :
    (mem.deallocate (some log.address)).Holds others ∧
      ∀ live, mem.Kept (mem.deallocate (some log.address)) live := by
  have apart : ∀ other, other ≠ log.address →
      (mem.deallocate (some log.address)).data other = mem.data other := by
    intro other different
    rw [deallocate_data]
    exact modify_of_ne different _
  have here : (mem.deallocate (some log.address)).data log.address =
      { mem.data log.address with count := (mem.data log.address).count - 1 } := by
    rw [deallocate_data, modify_self]
  have below := holds.address_lt List.mem_cons_self
  have free : ∀ address ∈ mem.freeList, address < mem.next ∧
      ((mem.deallocate (some log.address)).data address).count = 0 := by
    intro address member
    obtain ⟨lower, zero⟩ := holds.free address member
    refine ⟨lower, ?_⟩
    rw [apart address (Ne.symm (holds.logs.elsewhere zero List.mem_cons_self)), zero]
  refine ⟨⟨?_, ?_, ?_, ?_⟩, ?_⟩
  · exact holds.logs.release (by rw [here]) (by rw [here]) (by rw [here]) apart
  · intro address beyond
    rw [deallocate_next] at beyond
    rw [apart address (by omega)]
    exact holds.fresh address beyond
  · intro address member
    rw [deallocate_next]
    rw [deallocate_freeList] at member
    split at member
    · rename_i recycled
      rcases List.mem_cons.mp member with rfl | old
      · exact ⟨below, by rw [here]; exact recycled.1⟩
      · exact free address old
    · exact free address member
  · rw [deallocate_freeList]
    split
    · rw [List.nodup_cons]
      refine ⟨?_, holds.freeNodup⟩
      intro member
      have zero := (holds.free _ member).2
      have used := holds.logs.count_pos List.mem_cons_self
      omega
    · exact holds.freeNodup
  · intro live
    apply Kept.of_data
    intro address
    by_cases there : address = log.address
    · rw [there, here]
    · rw [apart address there]

theorem continues (holds : mem.Holds (log :: others)) (mem' : Memory) (values : List UInt8)
    (next : mem'.next = mem.next) (freeList : mem'.freeList = mem.freeList)
    (on : Continues mem.data mem'.data log values) :
    mem'.Holds (log.after values :: others) ∧
      (log.after values).contents mem'.data = log.contents mem.data ++ values ∧
      mem.Kept mem' others := by
  have below := holds.address_lt List.mem_cons_self
  refine ⟨⟨on.holds holds.logs, ?_, ?_, freeList ▸ holds.freeNodup⟩, on.contents,
    fun other member => on.kept holds.logs member⟩
  · intro address beyond
    rw [next] at beyond
    rw [on.elsewhere address (by omega)]
    exact holds.fresh address beyond
  · intro address member
    rw [freeList] at member
    obtain ⟨lower, zero⟩ := holds.free address member
    refine ⟨next ▸ lower, ?_⟩
    rw [on.elsewhere address (Ne.symm (holds.logs.elsewhere zero List.mem_cons_self)), zero]

end Holds

end Memory

end FISim.ByteTags
