import FISim.Events.PriorityQueue
import FISim.Lib.HeapOrder

/-!
`HeapScheduler`: a binary heap in an array, whose place 0 is wasted.

An access outside of the array and a failed assertion have no result.
-/

namespace FISim.Events

open Transition HeapOrder

namespace HeapScheduler

abbrev Heap := Array Event

def emptyEvent : Event := ⟨0, ⟨0, 0, 0⟩⟩

def empty : Heap := #[emptyEvent]

def parent (id : ℕ) : ℕ := id / 2
def leftChild (id : ℕ) : ℕ := id * 2
def rightChild (id : ℕ) : ℕ := id * 2 + 1
def root : ℕ := 1
def isRoot (id : ℕ) : Bool := id = root
def last (heap : Heap) : ℕ := heap.size - 1
def isBottom (heap : Heap) (id : ℕ) : Bool := heap.size ≤ id

def exch (heap : Heap) (a b : ℕ) : Option Heap :=
  if b < heap.size ∧ a < heap.size then some (heap.swapIfInBounds a b) else none

def isLessStrictly (heap : Heap) (a b : ℕ) : Option Bool := do
  let first ← heap[a]?
  let second ← heap[b]?
  return first.key.before second.key

def smallest (heap : Heap) (a b : ℕ) : Option ℕ := do
  return if ← isLessStrictly heap a b then a else b

def isEmpty (heap : Heap) : Bool := heap.size = 1

/-- The loop of `BottomUp`, with a bound on its turns. -/
def bottomUpLoop : ℕ → Heap → ℕ → Option Heap
  | 0, _, _ => none
  | fuel + 1, heap, index =>
      if isRoot index then some heap
      else do
        if ← isLessStrictly heap index (parent index) then
          let heap ← exch heap index (parent index)
          bottomUpLoop fuel heap (parent index)
        else return heap

def bottomUp (heap : Heap) : Option Heap := bottomUpLoop heap.size heap (last heap)

/-- What `TopDown` does behind its loop, where there is at most a left child. -/
def topDownEnd (heap : Heap) (index : ℕ) : Option Heap :=
  if isBottom heap index then some heap
  else
    let left := leftChild index
    if isBottom heap left then some heap
    else do
      if ← isLessStrictly heap index left then return heap
      else exch heap index left

/-- The loop of `TopDown`, with a bound on its turns. -/
def topDownLoop : ℕ → Heap → ℕ → Option Heap
  | 0, _, _ => none
  | fuel + 1, heap, index =>
      if isBottom heap (rightChild index) then topDownEnd heap index
      else do
        let tmp ← smallest heap (leftChild index) (rightChild index)
        if ← isLessStrictly heap index tmp then return heap
        else
          let heap ← exch heap index tmp
          topDownLoop fuel heap tmp

def topDown (heap : Heap) (start : ℕ) : Option Heap := topDownLoop heap.size heap start

def insert (heap : Heap) (ev : Event) : Option Heap := bottomUp (heap.push ev)

def peekNext (heap : Heap) : Option Event := heap[root]?

/-- The calls that `RemoveNext` and `Remove` end with: the last event takes the place. -/
def takeOut (heap : Heap) (id : ℕ) : Option Heap := do
  let heap ← exch heap id (last heap)
  topDown heap.pop id

def removeNext (heap : Heap) : Option (Event × Heap) := do
  let next ← heap[root]?
  return (next, ← takeOut heap root)

/-- The place at which the loop of `Remove` stops. -/
def find (heap : Heap) (uid : UInt32) : Option ℕ :=
  (List.range' 1 (heap.size - 1)).find? fun i => (heap.getD i emptyEvent).key.uid = uid

def remove (heap : Heap) (ev : Event) : Option Heap := do
  let i ← find heap ev.key.uid
  if (heap.getD i emptyEvent).impl = ev.impl then takeOut heap i else none

def queued (heap : Heap) : List Event := heap.toList.tail

def serve (heap : Heap) : Request → Option (Option Event × Heap)
  | .insert ev => (insert heap ev).map (none, ·)
  | .peekNext => (peekNext heap).map fun next => (some next, heap)
  | .removeNext => (removeNext heap).map fun removed => (some removed.1, removed.2)
  | .remove ev => (remove heap ev).map (none, ·)

/-- The last event, which `Remove` moves to the place of the removed one, does not have to rise
from there: it is not less than the event above that place. -/
def StaysBelow (heap : Heap) : Request → Prop
  | .remove ev => ∀ i, find heap ev.key.uid = some i →
      i = root ∨ i = last heap ∨ isLessStrictly heap (last heap) (parent i) = some false
  | _ => True

instance (heap : Heap) : ∀ request, Decidable (StaysBelow heap request)
  | .insert _ | .peekNext | .removeNext => isTrue trivial
  | .remove ev =>
      match found : find heap ev.key.uid with
      | none => isTrue (by simp [StaysBelow, found])
      | some id =>
          decidable_of_iff (id = root ∨ id = last heap ∨
            isLessStrictly heap (last heap) (parent id) = some false) (by simp [StaysBelow, found])

/-! The heap's keys, and what one exchange does to them. -/

def keys (heap : Heap) (id : ℕ) : ℕ ×ₗ ℕ := (heap.getD id emptyEvent).rank

theorem keys_eq {heap : Heap} {id : ℕ} (bound : id < heap.size) : keys heap id = heap[id].rank := by
  simp [keys, bound]

theorem isLessStrictly_eq {heap : Heap} {a b : ℕ} (first : a < heap.size) (second : b < heap.size) :
    isLessStrictly heap a b = some (decide (keys heap a < keys heap b)) := by
  rw [keys_eq first, keys_eq second, ← before_eq_rank]
  simp [isLessStrictly, first, second]

theorem smallest_eq {heap : Heap} {a b : ℕ} (first : a < heap.size) (second : b < heap.size) :
    smallest heap a b = some (if keys heap a < keys heap b then a else b) := by
  simp [smallest, isLessStrictly_eq first second]

/-- The same events, of which some have changed their places. -/
structure Shuffled (heap other : Heap) : Prop where
  size : other.size = heap.size
  perm : (queued other).Perm (queued heap)

theorem Shuffled.refl (heap : Heap) : Shuffled heap heap := ⟨rfl, List.Perm.refl _⟩

theorem Shuffled.trans {first second third : Heap} (one : Shuffled first second)
    (two : Shuffled second third) : Shuffled first third :=
  ⟨two.size.trans one.size, two.perm.trans one.perm⟩

theorem toList_eq {heap : Heap} (wasted : 0 < heap.size) :
    heap.toList = heap[0] :: queued heap := by
  obtain ⟨events⟩ := heap
  cases events with
  | nil => simp at wasted
  | cons first rest => rfl

theorem exch_spec {heap : Heap} {a b : ℕ} (first : a < heap.size) (second : b < heap.size)
    (aboveFirst : 1 ≤ a) (aboveSecond : 1 ≤ b) :
    ∃ other, exch heap a b = some other ∧ Shuffled heap other ∧
      keys other = exchanged (keys heap) a b := by
  have size : (heap.swapIfInBounds a b).size = heap.size := Array.size_swapIfInBounds
  refine ⟨heap.swapIfInBounds a b, by simp [exch, first, second], ⟨size, ?_⟩, ?_⟩
  · have swapped : (heap.swapIfInBounds a b).toList.Perm heap.toList := by
      rw [Array.swapIfInBounds_def, dif_pos first, dif_pos second]
      exact Array.perm_iff_toList_perm.mp (Array.swap_perm first second)
    have head : (heap.swapIfInBounds a b)[0] = heap[0] :=
      Array.getElem_swapIfInBounds_of_ne_of_ne (by omega) (by omega) (by omega)
    rw [toList_eq (by omega), toList_eq (by omega), head] at swapped
    exact swapped.cons_inv
  · funext id
    by_cases isFirst : id = a
    · subst isFirst
      rw [exchanged_first, keys_eq (by omega), keys_eq second, Array.getElem_swapIfInBounds_left second]
    · by_cases isSecond : id = b
      · subst isSecond
        rw [exchanged_second, keys_eq (by omega), keys_eq first,
          Array.getElem_swapIfInBounds_right first]
      · rw [exchanged_other isFirst isSecond]
        by_cases bound : id < heap.size
        · rw [keys_eq (by omega), keys_eq bound,
            Array.getElem_swapIfInBounds_of_ne_of_ne isFirst isSecond]
        · simp [keys, bound]

/-! The loops. -/

theorem bottomUpLoop_spec {fuel : ℕ} {heap : Heap} {index : ℕ} (enough : index < fuel)
    (inside : 1 ≤ index) (bound : index < heap.size)
    (rising : Rising (keys heap) (last heap) index) :
    ∃ other, bottomUpLoop fuel heap index = some other ∧ Shuffled heap other ∧
      Ordered (keys other) (last other) := by
  induction fuel generalizing heap index with
  | zero => omega
  | succ fuel ih =>
      rw [bottomUpLoop]
      by_cases top : index = 1
      · refine ⟨heap, by simp [isRoot, root, top], Shuffled.refl heap, ?_⟩
        exact rising.ordered (.inl (by omega))
      · have notRoot : ¬ isRoot index = true := by simp [isRoot, root, top]
        have above : parent index < heap.size := by
          rw [parent]
          omega
        rw [if_neg notRoot, isLessStrictly_eq bound above]
        by_cases less : keys heap index < keys heap (parent index)
        · obtain ⟨swapped, made, shuffled, keysEq⟩ := exch_spec bound above inside
            (by rw [parent]; omega)
          have size : last swapped = last heap := by rw [last, last, shuffled.size]
          have risen : Rising (keys swapped) (last swapped) (parent index) := by
            rw [keysEq, size]
            exact rising.exchange (by omega) (by rw [last]; omega) less
          obtain ⟨other, looped, later, ordered⟩ := ih (by rw [parent]; omega)
            (by rw [parent]; omega) (shuffled.size ▸ above) risen
          refine ⟨other, ?_, shuffled.trans later, ordered⟩
          simpa [less, made] using looped
        · refine ⟨heap, by simp [less], Shuffled.refl heap, ?_⟩
          exact rising.ordered (.inr (not_lt.mp less))

theorem smallest_child {heap : Heap} {index : ℕ} (both : rightChild index < heap.size) :
    ∃ child, smallest heap (leftChild index) (rightChild index) = some child ∧
      child < heap.size ∧ child / 2 = index ∧
      ∀ place ≤ last heap, place / 2 = index → keys heap child ≤ keys heap place := by
  have left : leftChild index < heap.size := by
    rw [rightChild] at both
    rw [leftChild]
    omega
  have children : ∀ place, place / 2 = index → place = leftChild index ∨ place = rightChild index := by
    intro place half
    rw [leftChild, rightChild]
    omega
  rw [smallest_eq left both]
  by_cases less : keys heap (leftChild index) < keys heap (rightChild index)
  · refine ⟨leftChild index, by rw [if_pos less], left, by rw [leftChild]; omega, ?_⟩
    intro place _ half
    rcases children place half with rfl | rfl
    · exact le_refl _
    · exact less.le
  · refine ⟨rightChild index, by rw [if_neg less], both, by rw [rightChild]; omega, ?_⟩
    intro place _ half
    rcases children place half with rfl | rfl
    · exact not_lt.mp less
    · exact le_refl _

theorem exch_sinking {heap : Heap} {index child : ℕ} (inside : 1 ≤ index)
    (bound : index < heap.size) (within : child < heap.size) (half : child / 2 = index)
    (least : ∀ place ≤ last heap, place / 2 = index → keys heap child ≤ keys heap place)
    (notLess : ¬ keys heap index < keys heap child)
    (sinking : Sinking (keys heap) (last heap) index) :
    ∃ swapped, exch heap index child = some swapped ∧ Shuffled heap swapped ∧
      Sinking (keys swapped) (last swapped) child := by
  obtain ⟨swapped, made, shuffled, keysEq⟩ := exch_spec bound within inside (by omega)
  refine ⟨swapped, made, shuffled, ?_⟩
  have size : last swapped = last heap := by rw [last, last, shuffled.size]
  rw [keysEq, size]
  exact sinking.exchange inside (by rw [last]; omega) half least (not_lt.mp notLess)

theorem topDownEnd_spec {heap : Heap} {index : ℕ} (inside : 1 ≤ index)
    (stop : heap.size ≤ rightChild index) (sinking : Sinking (keys heap) (last heap) index) :
    ∃ other, topDownEnd heap index = some other ∧ Shuffled heap other ∧
      Ordered (keys other) (last other) := by
  rw [rightChild] at stop
  rw [topDownEnd]
  by_cases childless : heap.size ≤ leftChild index
  · refine ⟨heap, by simp [isBottom, childless], Shuffled.refl heap, sinking.ordered ?_⟩
    intro place bound half
    rw [leftChild] at childless
    rw [last] at bound
    omega
  · have under : leftChild index < heap.size := by omega
    have bound : index < heap.size := by
      rw [leftChild] at under
      omega
    have least : ∀ place ≤ last heap, place / 2 = index →
        keys heap (leftChild index) ≤ keys heap place := by
      intro place within half
      have only : place = leftChild index := by
        rw [last] at within
        rw [leftChild]
        omega
      rw [only]
    have notBottom : ¬ isBottom heap index = true := by simpa [isBottom] using bound
    have notChildless : ¬ isBottom heap (leftChild index) = true := by simpa [isBottom] using under
    rw [if_neg notBottom]
    dsimp only
    rw [if_neg notChildless, isLessStrictly_eq bound under]
    by_cases less : keys heap index < keys heap (leftChild index)
    · refine ⟨heap, by simp [less], Shuffled.refl heap, sinking.ordered ?_⟩
      intro place within half
      exact less.le.trans (least place within half)
    · obtain ⟨swapped, made, shuffled, sunk⟩ := exch_sinking inside bound under
        (by rw [leftChild]; omega) least less sinking
      refine ⟨swapped, by simp [less, made], shuffled, sunk.ordered ?_⟩
      intro place within half
      rw [last, shuffled.size] at within
      rw [leftChild] at half
      omega

theorem topDownLoop_spec {fuel : ℕ} {heap : Heap} {index : ℕ} (enough : heap.size < fuel + index)
    (inside : 1 ≤ index) (positive : 0 < fuel) (sinking : Sinking (keys heap) (last heap) index) :
    ∃ other, topDownLoop fuel heap index = some other ∧ Shuffled heap other ∧
      Ordered (keys other) (last other) := by
  induction fuel generalizing heap index with
  | zero => omega
  | succ fuel ih =>
      rw [topDownLoop]
      by_cases stop : heap.size ≤ rightChild index
      · rw [if_pos (by simpa [isBottom] using stop)]
        exact topDownEnd_spec inside stop sinking
      · have right : rightChild index < heap.size := by omega
        obtain ⟨child, chosen, within, half, least⟩ := smallest_child right
        have bound : index < heap.size := by omega
        rw [if_neg (by simpa [isBottom] using right), chosen]
        simp only [Option.bind_eq_bind, Option.bind_some, isLessStrictly_eq bound within]
        by_cases less : keys heap index < keys heap child
        · refine ⟨heap, by simp [less], Shuffled.refl heap, sinking.ordered ?_⟩
          intro place inHeap halved
          exact less.le.trans (least place inHeap halved)
        · obtain ⟨swapped, made, shuffled, sunk⟩ :=
            exch_sinking inside bound within half least less sinking
          obtain ⟨other, looped, later, ordered⟩ := ih (by rw [shuffled.size]; omega) (by omega)
            (by omega) sunk
          refine ⟨other, ?_, shuffled.trans later, ordered⟩
          simpa [less, made] using looped

/-! The operations. -/

theorem keys_push {heap : Heap} (ev : Event) {id : ℕ} (bound : id < heap.size) :
    keys (heap.push ev) id = keys heap id := by
  have pushed : id < (heap.push ev).size := by rw [Array.size_push]; omega
  rw [keys_eq pushed, keys_eq bound, Array.getElem_push_lt bound]

theorem queued_push {heap : Heap} (ev : Event) (wasted : 0 < heap.size) :
    queued (heap.push ev) = queued heap ++ [ev] := by
  have positive : 0 < (heap.push ev).size := by rw [Array.size_push]; omega
  have split := toList_eq positive
  rw [Array.toList_push, toList_eq wasted, Array.getElem_push_lt wasted] at split
  exact (List.cons.inj split).2.symm

theorem queued_pop {heap : Heap} (two : 2 ≤ heap.size) :
    queued heap = queued heap.pop ++ [heap[heap.size - 1]] := by
  obtain ⟨rest, ev, rfl⟩ := Array.eq_push_of_size_ne_zero (show heap.size ≠ 0 by omega)
  rw [Array.size_push] at two
  rw [queued_push ev (by omega), Array.pop_push]
  simp

theorem insert_spec {heap : Heap} (ev : Event) (wasted : 0 < heap.size)
    (ordered : Ordered (keys heap) (last heap)) :
    ∃ other, insert heap ev = some other ∧ 0 < other.size ∧
      (queued other).Perm (ev :: queued heap) ∧ Ordered (keys other) (last other) := by
  have size : (heap.push ev).size = heap.size + 1 := Array.size_push ev
  have lastPushed : last (heap.push ev) = last heap + 1 := by rw [last, last, size]; omega
  have rising : Rising (keys (heap.push ev)) (last (heap.push ev)) (last (heap.push ev)) := by
    rw [lastPushed]
    refine ordered.rising fun place bound => keys_push ev ?_
    rw [last] at bound
    omega
  have bound : last (heap.push ev) < (heap.push ev).size := by rw [last]; omega
  obtain ⟨other, made, shuffled, settled⟩ := bottomUpLoop_spec bound (by omega) bound rising
  refine ⟨other, made, by rw [shuffled.size]; omega, shuffled.perm.trans ?_, settled⟩
  rw [queued_push ev wasted]
  exact List.perm_append_singleton ev (queued heap)

theorem takeOut_spec {heap : Heap} {id : ℕ} (inside : 1 ≤ id) (bound : id < heap.size)
    (ordered : Ordered (keys heap) (last heap))
    (high : 2 ≤ id → id < last heap → keys heap (id / 2) ≤ keys heap (last heap)) :
    ∃ other, takeOut heap id = some other ∧ 0 < other.size ∧
      (queued heap).Perm (heap[id] :: queued other) ∧ Ordered (keys other) (last other) := by
  have lastBound : last heap < heap.size := by rw [last]; omega
  obtain ⟨swapped, made, shuffled, keysEq⟩ := exch_spec bound lastBound inside (by rw [last]; omega)
  have swappedSize := shuffled.size
  have popped : swapped.pop.size = heap.size - 1 := by rw [Array.size_pop, swappedSize]
  have lastPopped : last heap = last swapped.pop + 1 := by rw [last, last, popped]; omega
  have samePlaces : ∀ place ≤ last swapped.pop,
      keys swapped.pop place = exchanged (keys heap) id (last swapped.pop + 1) place := by
    intro place within
    rw [last, popped] at within
    rw [← lastPopped, ← keysEq, keys_eq (by omega), keys_eq (by omega), Array.getElem_pop]
  have sinking : Sinking (keys swapped.pop) (last swapped.pop) id := by
    have sunk : Sinking (exchanged (keys heap) id (last swapped.pop + 1)) (last swapped.pop) id := by
      rw [lastPopped] at ordered high
      refine ordered.sinking inside ?_ fun deep short => high deep (by omega)
      rw [last] at lastPopped
      omega
    constructor
    · intro place deep within
      rw [samePlaces place within, samePlaces (place / 2) (by omega)]
      exact sunk.others place deep within
    · intro deep place within half
      rw [samePlaces place within, samePlaces (id / 2) (by omega)]
      exact sunk.below deep place within half
  have atLast : swapped[swapped.size - 1] = heap[id] := by
    simp only [exch, bound, lastBound, and_self, if_true, Option.some.injEq] at made
    subst made
    simp only [Array.size_swapIfInBounds]
    exact Array.getElem_swapIfInBounds_right bound _
  obtain ⟨other, taken, later, settled⟩ := topDownLoop_spec
    (show swapped.pop.size < swapped.pop.size + id by omega) inside (by omega) sinking
  refine ⟨other, ?_, by rw [later.size]; omega, ?_, settled⟩
  · rw [takeOut, made]
    exact taken
  · have rest := later.perm.cons heap[id]
    have moved : (queued swapped).Perm (heap[id] :: queued swapped.pop) := by
      rw [queued_pop (by omega), atLast]
      exact List.perm_append_singleton _ _
    exact (shuffled.perm.symm.trans moved).trans rest.symm

/-! The requests. -/

structure Sound (heap : Heap) (pending : Pending) : Prop where
  wasted : 0 < heap.size
  perm : (queued heap).Perm pending.events
  ordered : Ordered (keys heap) (last heap)
  distinct : DistinctUids pending.events

theorem mem_queued {heap : Heap} {ev : Event} (wasted : 0 < heap.size) :
    ev ∈ queued heap ↔ ∃ id, 1 ≤ id ∧ ∃ bound : id < heap.size, heap[id] = ev := by
  have listed := toList_eq wasted
  rw [List.mem_iff_getElem]
  have size : (queued heap).length + 1 = heap.size := by
    rw [← Array.length_toList, listed, List.length_cons]
  have shifted : ∀ place (bound : place < (queued heap).length),
      (queued heap)[place] = heap[place + 1] := by
    intro place bound
    rw [← Array.getElem_toList]
    simp [listed]
  constructor
  · rintro ⟨place, bound, rfl⟩
    exact ⟨place + 1, by omega, by omega, (shifted place bound).symm⟩
  · rintro ⟨id, inside, bound, rfl⟩
    obtain ⟨place, rfl⟩ := Nat.exists_eq_add_of_le' inside
    exact ⟨place, by omega, shifted place (by omega)⟩

theorem root_least {heap : Heap} (ordered : Ordered (keys heap) (last heap))
    (two : 1 < heap.size) : Least (queued heap) heap[1] := by
  rw [least_iff_rank]
  refine ⟨(mem_queued (by omega)).mpr ⟨1, le_refl 1, two, rfl⟩, ?_⟩
  intro other member
  obtain ⟨id, inside, bound, rfl⟩ := (mem_queued (by omega)).mp member
  have le := ordered.root_le inside (by rw [last]; omega)
  rwa [keys_eq two, keys_eq bound] at le

namespace Sound

variable {heap : Heap} {pending : Pending}

theorem two (sound : Sound heap pending) (nonempty : pending.events ≠ []) : 1 < heap.size := by
  obtain ⟨ev, member⟩ := List.exists_mem_of_ne_nil _ nonempty
  obtain ⟨id, inside, bound, -⟩ := (mem_queued sound.wasted).mp (sound.perm.mem_iff.mpr member)
  omega

theorem find_eq (sound : Sound heap pending) {ev : Event} (member : ev ∈ pending.events) :
    ∃ id, find heap ev.key.uid = some id ∧ 1 ≤ id ∧ ∃ bound : id < heap.size, heap[id] = ev := by
  have queuedEv := sound.perm.mem_iff.mpr member
  obtain ⟨place, inside, placeBound, isEv⟩ := (mem_queued sound.wasted).mp queuedEv
  cases found : find heap ev.key.uid with
  | none =>
      rw [find, List.find?_eq_none] at found
      have differs := found place (by rw [List.mem_range'_1]; omega)
      simp [placeBound, isEv] at differs
  | some id =>
      have inRange := List.mem_of_find?_eq_some found
      have same := List.find?_some found
      rw [List.mem_range'_1] at inRange
      have bound : id < heap.size := by omega
      refine ⟨id, rfl, inRange.1, bound, ?_⟩
      have isQueued : heap[id] ∈ pending.events :=
        sound.perm.mem_iff.mp ((mem_queued sound.wasted).mpr ⟨id, inRange.1, bound, rfl⟩)
      refine eq_of_uid sound.distinct isQueued member ?_
      simpa [bound] using same

theorem serve_spec (sound : Sound heap pending) {request : Request}
    (legal : request.Legal pending) (stays : StaysBelow heap request) :
    ∃ answer next, serve heap request = some (answer, next) ∧ request.Answered pending answer ∧
      Sound next (pending.after request answer) := by
  cases request with
  | insert ev =>
      obtain ⟨next, made, wasted, perm, ordered⟩ := insert_spec ev sound.wasted sound.ordered
      refine ⟨none, next, by simp [serve, made], rfl, wasted, ?_, ordered, ?_⟩
      · exact perm.trans (sound.perm.cons ev)
      · refine List.pairwise_cons.mpr ⟨?_, sound.distinct⟩
        intro other member
        exact (legal other member).symm
  | peekNext =>
      have two := sound.two legal
      refine ⟨some heap[1], heap, by simp [serve, peekNext, root, two], ⟨heap[1], rfl, ?_⟩, sound⟩
      exact (root_least sound.ordered two).perm sound.perm
  | removeNext =>
      have two := sound.two legal
      obtain ⟨next, taken, wasted, perm, ordered⟩ :=
        takeOut_spec (le_refl 1) two sound.ordered (by omega)
      refine ⟨some heap[1], next, ?_, ⟨heap[1], rfl, ?_⟩, wasted, ?_, ordered, ?_⟩
      · simp [serve, removeNext, root, two, taken]
      · exact (root_least sound.ordered two).perm sound.perm
      · exact perm_erase sound.perm perm
      · exact sound.distinct.sublist List.erase_sublist
  | remove ev =>
      obtain ⟨id, found, inside, bound, isEv⟩ := sound.find_eq legal
      have high : 2 ≤ id → id < last heap → keys heap (id / 2) ≤ keys heap (last heap) := by
        intro deep short
        rcases stays id found with top | isLast | notLess
        · rw [root] at top
          omega
        · omega
        · have lastBound : last heap < heap.size := by
            rw [last]
            omega
          rw [isLessStrictly_eq lastBound (by rw [parent]; omega)] at notLess
          exact not_lt.mp (of_decide_eq_false (Option.some.inj notLess))
      obtain ⟨next, taken, wasted, perm, ordered⟩ := takeOut_spec inside bound sound.ordered high
      refine ⟨none, next, ?_, rfl, wasted, ?_, ordered, ?_⟩
      · simp [serve, remove, found, bound, isEv, taken]
      · rw [isEv] at perm
        exact perm_erase sound.perm perm
      · exact sound.distinct.sublist List.erase_sublist

theorem empty : Sound HeapScheduler.empty Pending.start := by
  refine ⟨by decide, by rfl, ?_, List.Pairwise.nil⟩
  intro place inside bound
  have short : last HeapScheduler.empty = 0 := rfl
  omega

end Sound

/-- A heap scheduler of which every `Remove` lets the last event stay below is a priority queue. -/
theorem serves_of_staysBelow {requests : List Request}
    (guarded : Guarded (moves serve) StaysBelow empty requests) :
    Serves serve queued (fun pending request => request.Legal pending) empty Pending.start
      requests :=
  serves_of_guarded (fun _ _ sound => sound.perm)
    (fun _ _ _ sound legal stays => sound.serve_spec legal stays) Sound.empty guarded

/-! The removed event has children of the root's one side below it, and the last event comes from
the other side. -/

def timed (ts : UInt64) : Event := ⟨ts.toNat, ⟨ts, ts.toUInt32, 0⟩⟩

def misplaced : List Request :=
  [1, 10, 2, 11, 12, 20, 3].map (fun ts => .insert (timed ts)) ++
    [.remove (timed 11), .removeNext, .removeNext]

theorem misplaced_not_served :
    ¬ Serves serve queued (fun pending request => request.Legal pending) empty Pending.start
      (misplaced ++ [.peekNext]) := by
  intro serves
  have ran : run (attempt serve fun pending request => request.Legal pending)
      (empty, Pending.start) misplaced =
        some (#[emptyEvent, timed 10, timed 3, timed 20, timed 12],
          ⟨[timed 3, timed 20, timed 12, timed 10], 2⟩) := by
    rfl
  obtain ⟨-, step⟩ := Serves.later ran serves
  obtain ⟨answer, next, served, ⟨ev, rfl, least⟩, -⟩ := step (by decide)
  have peeked : ev = timed 10 := by
    have first : serve #[emptyEvent, timed 10, timed 3, timed 20, timed 12] .peekNext =
        some (some (timed 10), #[emptyEvent, timed 10, timed 3, timed 20, timed 12]) := rfl
    rw [first] at served
    simp only [Option.some.injEq, Prod.mk.injEq] at served
    exact served.1.symm
  have earlier := least.2 (timed 3) (by simp)
  rw [peeked] at earlier
  exact absurd earlier (by decide)

theorem serves_of_staysBelow_two :
    Guarded (moves serve) StaysBelow empty
        [.insert (timed 1), .insert (timed 2), .remove (timed 1), .removeNext] ∧
      Serves serve queued (fun pending request => request.Legal pending) empty Pending.start
        [.insert (timed 1), .insert (timed 2), .remove (timed 1), .removeNext] := by
  have guarded : Guarded (moves serve) StaysBelow empty
      [.insert (timed 1), .insert (timed 2), .remove (timed 1), .removeNext] := by
    decide
  exact ⟨guarded, serves_of_staysBelow guarded⟩

end HeapScheduler

end FISim.Events
