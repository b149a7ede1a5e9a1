import FISim.PacketTags.Operations

/-!
`RemoveAll`: the nodes up to the first merge are freed, each one turn after its
count has gone.
-/

namespace FISim.PacketTags

open Links PacketTagList

variable {TypeId : Type} {mem freed : TagMemory TypeId} {list : ℕ} {prev cur : Option ℕ}
variable {passed : List (ℕ × TagItem TypeId)}

theorem freePrev_cell (released : freePrev mem prev = some freed) {address : ℕ}
    {cell : Cell (TagItem TypeId)} (found : freed.cell address = some cell) :
    mem.cell address = some cell ∧ prev ≠ some address := by
  cases prev with
  | none =>
      obtain rfl := Option.some.inj released
      exact ⟨found, by simp⟩
  | some place =>
      obtain ⟨old, isOld, result⟩ := Option.bind_eq_some_iff.mp released
      obtain rfl := Option.some.inj result
      have different : address ≠ place := by
        rintro rfl
        rw [Memory.cell_setCell_self isOld] at found
        cases found
      rw [Memory.cell_setCell_of_ne different] at found
      exact ⟨found, fun same => different (Option.some.inj same).symm⟩

theorem freePrev_recount (released : freePrev mem prev = some freed) {address : ℕ}
    {cell : Cell (TagItem TypeId)} (found : freed.cell address = some cell) (change : ℕ → ℕ) :
    freePrev (mem.recount address change) prev = some (freed.recount address change) := by
  obtain ⟨before, apart⟩ := freePrev_cell released found
  cases prev with
  | none =>
      obtain rfl := Option.some.inj released
      rfl
  | some place =>
      obtain ⟨old, isOld, result⟩ := Option.bind_eq_some_iff.mp released
      obtain rfl := Option.some.inj result
      have different : place ≠ address := fun same => apart (congrArg some same)
      have kept : (mem.recount address change).cell place = some old := by
        rw [Memory.cell_recount_of_ne different, isOld]
      simp only [freePrev, free, kept, Option.bind_eq_bind, Option.bind_some]
      simp only [Memory.recount, before, found]
      simp only [Memory.setCell]
      rw [List.set_comm _ _ different.symm]
      rfl

/-- What is left when the pointer that a root had is let go. -/
structure Released (mem : TagMemory TypeId) (list : ℕ) (after : TagMemory TypeId) : Prop where
  roots : after.roots = mem.roots
  holds : Holds (after.setRoot list (some none)) none
  runs : ∀ other start passed, other ≠ list → mem.root other = some start →
    Run mem.body start passed none → Run after.body start passed none

theorem removeAllLoop_spec {turns : ℕ} (released : freePrev mem prev = some freed)
    (holds : Holds (freed.setRoot list (some none)) cur) (run : Run freed.body cur passed none)
    (enough : passed.length < turns) :
    ∃ after, removeAllLoop turns mem prev cur = some after ∧ Released freed list after := by
  induction turns generalizing mem prev cur freed passed with
  | zero => omega
  | succ turns ih =>
      cases run with
      | nil => exact ⟨freed, released, rfl, holds, fun _ _ _ _ _ run => run⟩
      | @cons address next _ item rest found run =>
          obtain ⟨cell, isCell⟩ := Memory.cell_of_body (by rw [found]; rfl)
          rw [Memory.body_of_cell isCell, Option.some_inj, Prod.mk.injEq] at found
          obtain ⟨rfl, rfl⟩ := found
          have before := (freePrev_cell released isCell).1
          have lessened := freePrev_recount released isCell (· - 1)
          have there : (freed.setRoot list (some none)).cell address = some cell := isCell
          unfold removeAllLoop
          simp only [before, lessened, Option.bind_eq_bind, Option.bind_some]
          by_cases shared : cell.count - 1 > 0
          · rw [if_pos shared]
            refine ⟨_, rfl, rfl, release_shared holds there (by omega), ?_⟩
            intro other start passed different isRoot way
            rwa [Memory.body_recount]
          · rw [if_neg shared]
            have last : cell.count ≤ 1 := by omega
            have goes : freePrev (freed.recount address (· - 1)) (some address) =
                some (freed.setCell address none) := by
              simp only [freePrev, free, Memory.cell_recount_self isCell, Option.bind_eq_bind,
                Option.bind_some]
              simp only [Memory.recount, Memory.setCell, List.set_set]
              rfl
            have notAgain := (Run.cons (Memory.body_of_cell isCell) run).not_again
            have way : Run (freed.setCell address none).body cell.next rest none := by
              apply run.congr
              intro other member
              rw [Memory.body_free isCell, if_neg]
              rintro rfl
              exact notAgain member
            rw [List.length_cons] at enough
            obtain ⟨after, looped, ends⟩ :=
              ih goes (release_last holds there last) way (by omega)
            refine ⟨after, looped, ends.roots, ends.holds, ?_⟩
            intro other start passed different isRoot onward
            apply ends.runs other start passed different isRoot
            have stays : (freed.setRoot list (some none)).root other = some start := by
              rw [Memory.root_setRoot_of_ne different]
              exact isRoot
            exact release_run holds there last stays onward

theorem removeAll_spec (holds : Holds mem none) {start : Option ℕ}
    (isRoot : mem.root list = some start) :
    ∃ after, removeAll mem list = some after ∧ Holds after none ∧ Frame mem after list ∧
      after.root list = some none := by
  have points : mem.get (.root list) = some start := isRoot
  obtain ⟨passed, run⟩ := holds.run points
  have taken := take_holds holds isRoot
  have nothing : freePrev mem none = some mem := rfl
  obtain ⟨after, looped, ends⟩ :=
    removeAllLoop_spec nothing taken run (Nat.lt_succ_of_le run.length_le)
  refine ⟨after.setRoot list (some none), ?_, ends.holds, ⟨?_, ?_, ?_⟩, ?_⟩
  · simp only [removeAll, isRoot, Option.bind_eq_bind, Option.bind_some]
    rw [fuel, looped]
    rfl
  · rw [← ends.roots]
    exact List.length_set
  · intro other different
    rw [← ends.roots]
    exact List.getElem?_set_ne different.symm
  · exact ends.runs
  · have same : after.root list = some start := by
      rw [Memory.root, ends.roots]
      exact isRoot
    exact Memory.root_setRoot_self same _

end FISim.PacketTags
