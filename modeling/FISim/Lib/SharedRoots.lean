import FISim.Lib.CopyOnWrite

/-!
The roots of shared lists: a cell put in front of a list, a list that another
root shares, and a root that lets its list go.
-/

namespace Links

variable {Item : Type} {mem : Memory Item} {number : ℕ} {pointer : Option ℕ}

theorem holds_empty : Holds ({} : Memory Item) none where
  counted _ := rfl
  live _ allocated := by cases allocated
  ends _ allocated := by cases allocated

def Memory.push (mem : Memory Item) (number : ℕ) (pointer : Option ℕ) (item : Item) :
    Memory Item :=
  (mem.alloc { next := pointer, count := 1, item }).store (.root number) (some mem.cells.length)

section Push

variable (holds : Holds mem none) (isRoot : mem.root number = some pointer) (item : Item)

theorem body_push (address : ℕ) : (mem.push number pointer item).body address =
    if address = mem.cells.length then some (pointer, item) else mem.body address := by
  change (mem.alloc { next := pointer, count := 1, item }).body address = _
  rw [Memory.body_alloc]

theorem push_after {start : Option ℕ} {passed : List (ℕ × Item)}
    (run : Run mem.body start passed none) :
    Run (mem.push number pointer item).body start passed none := by
  apply run.congr
  intro address member
  rw [body_push, if_neg]
  rintro rfl
  exact length_not_passed run member

theorem push_frame : Frame mem (mem.push number pointer item) number where
  length := List.length_set
  roots _ different := List.getElem?_set_ne different.symm
  runs _ _ _ _ _ run := push_after item run

include isRoot

theorem push_root : (mem.push number pointer item).root number = some (some mem.cells.length) := by
  have stored : (mem.alloc { next := pointer, count := 1, item }).root number = some pointer :=
    isRoot
  exact Memory.root_setRoot_self stored _

include holds

theorem push_holds : Holds (mem.push number pointer item) none := by
  constructor
  · intro address
    have stored : (mem.alloc { next := pointer, count := 1, item }).root number = some pointer :=
      isRoot
    have moved := Memory.pointers_setRoot stored (some (some mem.cells.length)) address
    have counted := holds.counted address
    have counts : (mem.push number pointer item).count address =
        if address = mem.cells.length then 1 else mem.count address := by
      change (mem.alloc { next := pointer, count := 1, item }).count address = _
      rw [Memory.count_alloc]
    obtain ⟨fresh, -⟩ := holds.length_unpointed
    rw [Memory.pointers_alloc] at moved
    rw [counts]
    change (mem.push number pointer item).pointers address + _ = _ at moved
    simp only [Option.some.injEq, reduceCtorEq, if_false] at moved counted ⊢
    by_cases isNew : address = mem.cells.length
    · subst isNew
      simp only [if_true] at moved ⊢
      omega
    · rw [if_neg isNew]
      rw [if_neg (Ne.symm isNew)] at moved
      omega
  · intro address allocated
    rw [body_push] at allocated
    change 0 < (mem.alloc { next := pointer, count := 1, item }).count address
    rw [Memory.count_alloc]
    split
    · exact Nat.one_pos
    · rename_i old
      rw [if_neg old] at allocated
      exact holds.live address allocated
  · have points : mem.get (.root number) = some pointer := isRoot
    obtain ⟨passed, run⟩ := holds.run points
    exact ends_alloc holds.ends run

end Push

theorem holds_shared {mem' : Memory Item} (holds : Holds mem none)
    (body : mem'.body = mem.body) (count : ∀ address, mem'.count address = mem.count address)
    (pointers : ∀ address, mem'.pointers address =
      mem.pointers address + if pointer = some address then 1 else 0)
    (there : ∀ address, pointer = some address → (mem.body address).isSome) :
    Holds (mem'.increment pointer) none := by
  have present : ∀ place, pointer = some place → (mem'.body place).isSome := by
    rw [body]
    exact there
  constructor
  · intro address
    have counted := holds.counted address
    rw [Memory.pointers_increment _ present, Memory.count_increment present, pointers, count]
    simp only [reduceCtorEq, if_false] at counted ⊢
    omega
  · intro address allocated
    rw [Memory.body_increment, body] at allocated
    rw [Memory.count_increment present, count]
    have := holds.live address allocated
    omega
  · rw [Memory.body_increment, body]
    exact holds.ends

section Share

variable {slot : Slot} (holds : Holds mem none) (points : mem.get slot = some pointer)

include holds points

theorem newRoot_holds : Holds ((mem.newRoot pointer).increment pointer) none := by
  apply holds_shared holds
  · rfl
  · exact fun _ => rfl
  · exact Memory.pointers_newRoot pointer
  · rintro address rfl
    exact holds.allocated points

theorem share_holds (isRoot : mem.root number = some none) :
    Holds ((mem.store (.root number) pointer).increment pointer) none := by
  apply holds_shared holds
  · rfl
  · exact fun _ => rfl
  · intro address
    have moved := Memory.pointers_setRoot isRoot (some pointer) address
    simp only [Option.some.injEq, reduceCtorEq, if_false] at moved
    exact moved
  · rintro address rfl
    exact holds.allocated points

omit holds points

theorem share_frame : Frame mem ((mem.store (.root number) pointer).increment pointer) number := by
  constructor
  · rw [Memory.roots_increment]
    exact List.length_set
  · intro other different
    rw [Memory.roots_increment]
    exact List.getElem?_set_ne different.symm
  · intro other start passed _ _ run
    rw [Memory.body_increment]
    exact run

end Share

theorem dropRoot_holds (holds : Holds mem none) (isRoot : mem.root number = some none) :
    Holds (mem.setRoot number none) none where
  counted address := by
    have moved := Memory.pointers_setRoot isRoot none address
    have counted := holds.counted address
    simp only [reduceCtorEq, if_false] at moved counted ⊢
    change _ = mem.count address
    omega
  live := holds.live
  ends := holds.ends

/-! A pointer that no slot holds any more is let go. -/

section Release

variable {cur : ℕ} {cell : Cell Item} (holds : Holds mem (some cur))
variable (found : mem.cell cur = some cell)

theorem take_holds (holds : Holds mem none) (isRoot : mem.root number = some pointer) :
    Holds (mem.setRoot number (some none)) pointer where
  counted address := by
    have moved := Memory.pointers_setRoot isRoot (some none) address
    have counted := holds.counted address
    simp only [reduceCtorEq, if_false, Option.some.injEq] at moved counted ⊢
    change _ = mem.count address
    omega
  live := holds.live
  ends := holds.ends

include holds found

theorem release_shared (shared : 1 < cell.count) : Holds (mem.recount cur (· - 1)) none := by
  constructor
  · intro address
    have counted := holds.counted address
    have here := Memory.count_of_cell found
    rw [Memory.pointers_recount found, Memory.count_recount found]
    simp only [reduceCtorEq, if_false, Option.some.injEq] at counted ⊢
    by_cases isCur : address = cur
    · subst isCur
      rw [if_pos rfl] at counted ⊢
      omega
    · rw [if_neg (Ne.symm isCur)] at counted
      rw [if_neg isCur]
      omega
  · intro address allocated
    rw [Memory.body_recount] at allocated
    have := holds.live address allocated
    rw [Memory.count_recount found]
    split
    · omega
    · exact this
  · rw [Memory.body_recount]
    exact holds.ends

theorem unpointed_of_last (last : cell.count ≤ 1) : mem.pointers cur = 0 := by
  have counted := holds.counted cur
  rw [if_pos rfl, Memory.count_of_cell found] at counted
  omega

theorem release_last (last : cell.count ≤ 1) : Holds (mem.setCell cur none) cell.next := by
  have unpointed := unpointed_of_last holds found last
  constructor
  · intro address
    have freed := Memory.pointers_setCell found none address
    have counted := holds.counted address
    rw [Memory.count_free found]
    simp only [Option.map_none, reduceCtorEq, if_false, Option.some.injEq] at freed counted ⊢
    by_cases isCur : address = cur
    · subst isCur
      rw [if_pos rfl] at counted ⊢
      omega
    · rw [if_neg (Ne.symm isCur)] at counted
      rw [if_neg isCur]
      omega
  · intro address allocated
    rw [Memory.body_free found] at allocated
    rw [Memory.count_free found]
    split at allocated
    · cases allocated
    · rename_i different
      rw [if_neg different]
      exact holds.live address allocated
  · exact ends_free holds.ends found unpointed

theorem release_run (last : cell.count ≤ 1) {other : ℕ} {start : Option ℕ}
    {passed : List (ℕ × Item)} (isRoot : mem.root other = some start)
    (run : Run mem.body start passed none) :
    Run (mem.setCell cur none).body start passed none := by
  have unpointed := unpointed_of_last holds found last
  apply run.congr
  intro address member
  rw [Memory.body_free found, if_neg]
  rintro rfl
  obtain ⟨source, reaches, -⟩ := run.pointed (.root other) isRoot member
  have := Memory.pointers_pos reaches
  omega

end Release

theorem Holds.reached (holds : Holds mem none) {address : ℕ}
    (allocated : (mem.body address).isSome) :
    ∃ number start passed, mem.root number = some start ∧ Run mem.body start passed none ∧
      address ∈ addresses passed := by
  obtain ⟨way, run⟩ := holds.ends address allocated
  -- cells nearer to a root have longer ways to the end
  generalize distance : mem.cells.length - way.length = left
  induction left using Nat.strongRecOn generalizing address way with
  | ind left ih =>
      have positive := holds.live address allocated
      rw [← holds.counted address] at positive
      simp only [reduceCtorEq, if_false, Nat.add_zero] at positive
      obtain ⟨slot, points⟩ := Memory.slot_of_pointers positive
      cases slot with
      | root number =>
          refine ⟨number, some address, way, points, run, ?_⟩
          cases run with
          | cons found run => exact List.mem_cons_self
      | next previous =>
          obtain ⟨cell, isCell, next⟩ := Option.map_eq_some_iff.mp points
          have body := Memory.body_of_cell isCell
          rw [next] at body
          have longer : Run mem.body (some previous) ((previous, cell.item) :: way) none :=
            .cons body run
          have fits := longer.length_le
          rw [List.length_cons] at fits
          obtain ⟨number, start, passed, isRoot, goes, member⟩ :=
            ih (mem.cells.length - ((previous, cell.item) :: way).length)
              (by rw [List.length_cons]; omega) (by rw [body]; rfl) _ longer rfl
          refine ⟨number, start, passed, isRoot, goes, ?_⟩
          obtain ⟨before, item, after, rfl, later⟩ := goes.suffix member
          obtain ⟨rest, same, onward⟩ := later.tail isCell
          rw [next] at onward
          have rests : rest = way := onward.unique run
          have isHead : address ∈ addresses way := by
            cases run with
            | cons found run => exact List.mem_cons_self
          rw [same, rests, addresses, List.map_append]
          exact List.mem_append_right _ (List.mem_cons_of_mem _ isHead)

end Links
