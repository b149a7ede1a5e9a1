import FISim.Lib.Cells
import Mathlib.Data.List.Count
import Mathlib.Logic.Function.Basic

/-!
Logs that share their blocks.  A log is the front of a block, as far as the log
has been written; a block counts its logs and marks how far one of them reaches.
A log that is alone on its block, or that reaches the mark, goes on in place.
-/

namespace SharedLogs

open Cells

universe u

variable {α : Type u}

structure Block (α : Type u) where
  size : ℕ := 0
  count : ℕ := 0
  dirty : ℕ := 0
  data : ℕ → α

abbrev Heap (α : Type u) := ℕ → Block α

structure Log where
  address : ℕ
  used : ℕ
  deriving DecidableEq, Repr

def Log.contents (heap : Heap α) (log : Log) : List α := slice (heap log.address).data 0 log.used

structure Holds (heap : Heap α) (live : List Log) : Prop where
  counted : ∀ address, (heap address).count = live.countP fun log => log.address = address
  reached : ∀ log ∈ live, log.used ≤ (heap log.address).dirty
  inside : ∀ log ∈ live, (heap log.address).dirty ≤ (heap log.address).size

variable {heap heap' : Heap α} {live others : List Log} {log other : Log} {address : ℕ}

theorem contents_congr (same : (heap' log.address).data = (heap log.address).data) :
    log.contents heap' = log.contents heap := by
  unfold Log.contents
  rw [same]

namespace Holds

theorem perm {live' : List Log} (holds : Holds heap live) (same : live.Perm live') :
    Holds heap live' where
  counted address := by rw [holds.counted, same.countP_eq]
  reached log member := holds.reached log (same.mem_iff.mpr member)
  inside log member := holds.inside log (same.mem_iff.mpr member)

theorem count_pos (holds : Holds heap live) (member : log ∈ live) :
    0 < (heap log.address).count := by
  rw [holds.counted, List.countP_pos_iff]
  exact ⟨log, member, by simp⟩

theorem elsewhere (holds : Holds heap live) (unused : (heap address).count = 0)
    (member : log ∈ live) : log.address ≠ address := by
  rintro rfl
  have used := holds.count_pos member
  omega

theorem alone (holds : Holds heap (log :: others)) (once : (heap log.address).count = 1)
    (member : other ∈ others) : other.address ≠ log.address := by
  intro shared
  have counted := holds.counted log.address
  rw [List.countP_cons_of_pos (by simp)] at counted
  have another : 0 < others.countP fun log' => log'.address = log.address := by
    rw [List.countP_pos_iff]
    exact ⟨other, member, by simpa using shared⟩
  omega

theorem share (holds : Holds heap live) (member : log ∈ live)
    (same : other.address = log.address) (shorter : other.used ≤ log.used)
    (counts : (heap' log.address).count = (heap log.address).count + 1)
    (sizes : (heap' log.address).size = (heap log.address).size)
    (marks : (heap' log.address).dirty = (heap log.address).dirty)
    (elsewhere : ∀ address, address ≠ log.address → heap' address = heap address) :
    Holds heap' (other :: live) := by
  have size : ∀ address, (heap' address).size = (heap address).size := by
    intro address
    by_cases here : address = log.address
    · rw [here, sizes]
    · rw [elsewhere address here]
  have dirty : ∀ address, (heap' address).dirty = (heap address).dirty := by
    intro address
    by_cases here : address = log.address
    · rw [here, marks]
    · rw [elsewhere address here]
  refine ⟨?_, ?_, ?_⟩
  · intro address
    by_cases here : address = log.address
    · subst here
      rw [counts, List.countP_cons_of_pos (by simp [same]), holds.counted]
    · rw [elsewhere address here, List.countP_cons_of_neg (by simpa [same] using Ne.symm here),
        holds.counted]
  · intro log' member'
    rw [dirty]
    rcases List.mem_cons.mp member' with rfl | old
    · rw [same]
      exact Nat.le_trans shorter (holds.reached log member)
    · exact holds.reached log' old
  · intro log' member'
    rw [dirty, size]
    rcases List.mem_cons.mp member' with rfl | old
    · rw [same]
      exact holds.inside log member
    · exact holds.inside log' old

theorem release (holds : Holds heap (log :: others))
    (counts : (heap' log.address).count = (heap log.address).count - 1)
    (sizes : (heap' log.address).size = (heap log.address).size)
    (marks : (heap' log.address).dirty = (heap log.address).dirty)
    (elsewhere : ∀ address, address ≠ log.address → heap' address = heap address) :
    Holds heap' others := by
  refine ⟨?_, ?_, ?_⟩
  · intro address
    have counted := holds.counted address
    by_cases here : address = log.address
    · subst here
      rw [List.countP_cons_of_pos (by simp)] at counted
      rw [counts, counted, Nat.add_sub_cancel]
    · rw [List.countP_cons_of_neg (by simpa using Ne.symm here)] at counted
      rw [elsewhere address here, counted]
  · intro log' member
    have reached := holds.reached log' (List.mem_cons_of_mem _ member)
    by_cases here : log'.address = log.address
    · rw [here] at reached ⊢
      rwa [marks]
    · rwa [elsewhere _ here]
  · intro log' member
    have inside := holds.inside log' (List.mem_cons_of_mem _ member)
    by_cases here : log'.address = log.address
    · rw [here] at inside ⊢
      rwa [marks, sizes]
    · rwa [elsewhere _ here]

theorem start (holds : Holds heap live) (unused : (heap address).count = 0)
    (once : (heap' address).count = 1) (used : log.used ≤ (heap' address).dirty)
    (room : (heap' address).dirty ≤ (heap' address).size) (here : log.address = address)
    (elsewhere : ∀ other, other ≠ address → heap' other = heap other) :
    Holds heap' (log :: live) := by
  subst here
  refine ⟨?_, ?_, ?_⟩
  · intro place
    have counted := holds.counted place
    by_cases there : place = log.address
    · subst there
      rw [List.countP_cons_of_pos (by simp), once, ← counted, unused]
    · rw [List.countP_cons_of_neg (by simpa using Ne.symm there), elsewhere place there, counted]
  · intro log' member
    rcases List.mem_cons.mp member with rfl | old
    · exact used
    · rw [elsewhere _ (holds.elsewhere unused old)]
      exact holds.reached log' old
  · intro log' member
    rcases List.mem_cons.mp member with rfl | old
    · exact room
    · rw [elsewhere _ (holds.elsewhere unused old)]
      exact holds.inside log' old

end Holds

def Log.after (log : Log) (values : List α) : Log := { log with used := log.used + values.length }

/-- What goes on in place is alone on its block or has reached the mark, and finds room. -/
structure Continues (heap heap' : Heap α) (log : Log) (values : List α) : Prop where
  free : (heap log.address).count = 1 ∨ (heap log.address).dirty = log.used
  room : log.used + values.length ≤ (heap log.address).size
  count : (heap' log.address).count = (heap log.address).count
  size : (heap' log.address).size = (heap log.address).size
  dirty : (heap' log.address).dirty = log.used + values.length
  data : (heap' log.address).data = patch (heap log.address).data log.used values
  elsewhere : ∀ address, address ≠ log.address → heap' address = heap address

namespace Continues

variable {values : List α}

theorem holds (continues : Continues heap heap' log values) (holds : Holds heap (log :: others)) :
    Holds heap' (log.after values :: others) := by
  have room := continues.room
  refine ⟨?_, ?_, ?_⟩
  · intro address
    have counted := holds.counted address
    rw [List.countP_cons] at counted ⊢
    by_cases here : address = log.address
    · subst here
      rw [continues.count, counted]
      rfl
    · rw [continues.elsewhere address here, counted]
      rfl
  · intro log' member
    rcases List.mem_cons.mp member with rfl | old
    · exact Nat.le_of_eq continues.dirty.symm
    · have reached := holds.reached log' (List.mem_cons_of_mem _ old)
      by_cases here : log'.address = log.address
      · rw [here, continues.dirty]
        rcases continues.free with once | last
        · exact absurd here (holds.alone once old)
        · rw [here, last] at reached
          omega
      · rwa [continues.elsewhere _ here]
  · intro log' member
    rcases List.mem_cons.mp member with rfl | old
    · change (heap' log.address).dirty ≤ (heap' log.address).size
      rwa [continues.dirty, continues.size]
    · have inside := holds.inside log' (List.mem_cons_of_mem _ old)
      by_cases here : log'.address = log.address
      · rwa [here, continues.dirty, continues.size]
      · rwa [continues.elsewhere _ here]

theorem contents (continues : Continues heap heap' log values) :
    (log.after values).contents heap' = log.contents heap ++ values := by
  apply List.ext_getElem?
  intro index
  unfold Log.contents Log.after
  by_cases old : index < log.used
  · rw [slice_getElem? (by simp only; omega), List.getElem?_append_left (by simpa using old),
      slice_getElem? old, continues.data, patch_outside (by omega)]
  · by_cases new : index < log.used + values.length
    · obtain ⟨offset, rfl⟩ : ∃ offset, index = log.used + offset := ⟨index - log.used, by omega⟩
      rw [slice_getElem? new, List.getElem?_append_right (by simp), slice_length,
        Nat.add_sub_cancel_left, continues.data, Nat.zero_add]
      have written : values[offset]? = some values[offset] := List.getElem?_eq_getElem (by omega)
      rw [patch_inside written, written]
    · rw [List.getElem?_eq_none (by simpa using Nat.le_of_not_lt new),
        List.getElem?_eq_none (by
          rw [List.length_append, slice_length]
          omega)]

theorem kept (continues : Continues heap heap' log values) (holds : Holds heap (log :: others))
    (member : other ∈ others) : other.contents heap' = other.contents heap := by
  by_cases here : other.address = log.address
  · rcases continues.free with once | last
    · exact absurd here (holds.alone once member)
    · have reached := holds.reached other (List.mem_cons_of_mem _ member)
      rw [here, last] at reached
      apply List.ext_getElem?
      intro index
      unfold Log.contents
      by_cases inside : index < other.used
      · rw [slice_getElem? inside, slice_getElem? inside, here, continues.data,
          patch_outside (by omega)]
      · rw [List.getElem?_eq_none (by simpa using inside),
          List.getElem?_eq_none (by simpa using inside)]
  · exact contents_congr (by rw [continues.elsewhere _ here])

end Continues

end SharedLogs
