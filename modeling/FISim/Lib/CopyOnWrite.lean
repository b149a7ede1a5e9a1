import FISim.Lib.SharedLists

/-!
Copy on write over shared lists: what a write behind one root does to the counts
and to the lists of all roots.
-/

namespace Links

variable {Item : Type} {mem mem' : Memory Item} {number : ℕ}

/-- No other root and no other root's list is changed. -/
structure Frame (mem mem' : Memory Item) (number : ℕ) : Prop where
  length : mem'.roots.length = mem.roots.length
  roots : ∀ other ≠ number, mem'.roots[other]? = mem.roots[other]?
  runs : ∀ (other : ℕ) (start : Option ℕ) (passed : List (ℕ × Item)), other ≠ number →
    mem.root other = some start → Run mem.body start passed none →
      Run mem'.body start passed none

theorem Frame.refl (mem : Memory Item) (number : ℕ) : Frame mem mem number :=
  ⟨rfl, fun _ _ => rfl, fun _ _ _ _ _ run => run⟩

theorem Frame.trans {mem'' : Memory Item} (first : Frame mem mem' number)
    (second : Frame mem' mem'' number) : Frame mem mem'' number where
  length := second.length.trans first.length
  roots other different := (second.roots other different).trans (first.roots other different)
  runs other start passed different isRoot run := by
    apply second.runs other start passed different
    · rw [Memory.root, first.roots other different]
      exact isRoot
    · exact first.runs other start passed different isRoot run

section Write

variable {before : List (ℕ × Item)} {slot : Slot} {cur : ℕ} {cell : Cell Item}
variable {later : List (ℕ × Item)}

theorem Cursor.roots_store (cursor : Cursor mem number before slot (some cur))
    (mem' : Memory Item) (target : Option ℕ) :
    (mem'.store slot target).roots.length = mem'.roots.length ∧
      ∀ other ≠ number, (mem'.store slot target).roots[other]? = mem'.roots[other]? := by
  rcases cursor.slot_eq with rfl | ⟨address, -, rfl⟩
  · refine ⟨List.length_set, ?_⟩
    intro other different
    exact List.getElem?_set_ne different.symm
  · exact ⟨rfl, fun other different => rfl⟩

/-- A write frames the other roots when it leaves every cell alone that the cursor has not
passed. -/
theorem Cursor.frame {pointer : Option ℕ} (cursor : Cursor mem number before slot pointer)
    (holds : Holds mem none) (length : mem'.roots.length = mem.roots.length)
    (roots : ∀ other ≠ number, mem'.roots[other]? = mem.roots[other]?)
    (same : ∀ address, (mem.body address).isSome → address ∉ addresses before →
      mem'.body address = mem.body address) : Frame mem mem' number where
  length := length
  roots := roots
  runs other start passed different isRoot run := by
    apply run.congr
    intro address member
    apply same address (run.allocated member)
    intro owned
    exact cursor.apart holds different isRoot run owned member

theorem Cursor.place_mem {pointer : Option ℕ} (cursor : Cursor mem number before slot pointer)
    {place : ℕ} (here : slot = .next place) : place ∈ addresses before := by
  rcases cursor.slot_eq with root | ⟨address, member, same⟩
  · rw [root] at here
    cases here
  · rw [same] at here
    rwa [← Slot.next.inj here]

theorem Run.tail (run : Run mem.body (some cur) later none) (found : mem.cell cur = some cell) :
    ∃ rest, later = (cur, cell.item) :: rest ∧ Run mem.body cell.next rest none := by
  cases run with
  | cons body rest =>
      rw [Memory.body_of_cell found, Option.some_inj, Prod.mk.injEq] at body
      obtain ⟨rfl, rfl⟩ := body
      exact ⟨_, rfl, rest⟩

theorem Holds.after (holds : Holds mem none) (cursor : Cursor mem number before slot (some cur))
    (found : mem.cell cur = some cell) :
    ∃ rest, Run mem.body (some cur) ((cur, cell.item) :: rest) none ∧
      Run mem.body cell.next rest none ∧ cur ∉ addresses rest ∧
      (∀ place, cell.next = some place → (mem.body place).isSome ∧ place ≠ cur) := by
  obtain ⟨passed, run⟩ := holds.run cursor.get
  obtain ⟨rest, rfl, next⟩ := run.tail found
  refine ⟨rest, run, next, run.not_again, ?_⟩
  intro place isNext
  have there : place ∈ addresses rest := by
    rw [isNext] at next
    cases next with
    | cons body rest => exact List.mem_cons_self
  refine ⟨next.allocated there, ?_⟩
  rintro rfl
  exact run.not_again there

theorem passed_apart (holds : Holds mem none)
    (cursor : Cursor mem number before slot (some cur)) (found : mem.cell cur = some cell)
    {address : ℕ} (member : address ∈ addresses before) :
    address ≠ cur ∧ cell.next ≠ some address := by
  obtain ⟨rest, run, next, -⟩ := holds.after cursor found
  constructor
  · rintro rfl
    exact cursor.apart_after run member List.mem_cons_self
  · intro same
    rw [same] at next
    cases next with
    | cons body rest =>
        exact cursor.apart_after run member (List.mem_cons_of_mem _ List.mem_cons_self)

theorem body_stored_of_kept {old : Option ℕ} (cursor : Cursor mem number before slot old)
    (target : Option ℕ) {address : ℕ} (kept : address ∉ addresses before) :
    (mem.store slot target).body address = mem.body address := by
  rw [Memory.body_store cursor.get, if_neg]
  exact fun here => kept (cursor.place_mem here)

theorem stored_isSome {old : Option ℕ} (cursor : Cursor mem number before slot old)
    (target : Option ℕ) {address : ℕ} :
    ((mem.store slot target).body address).isSome = (mem.body address).isSome := by
  rw [Memory.body_store cursor.get]
  split
  · rw [Option.isSome_map]
  · rfl

/-- The memory with one pointer of a shared cell taken away, and a copy of the cell that has an
item of its own. -/
def Memory.copied (mem : Memory Item) (cur : ℕ) (cell : Cell Item) (item : Item) : Memory Item :=
  ((mem.recount cur (· - 1)).alloc { next := cell.next, count := 1, item }).increment cell.next

/-- The slot's pointer moved from the shared cell to the copy. -/
def Memory.relink (mem : Memory Item) (slot : Slot) (cur : ℕ) (cell : Cell Item) (item : Item) :
    Memory Item :=
  (mem.copied cur cell item).store slot (some mem.cells.length)

theorem get_copied (cursor : Cursor mem number before slot (some cur)) (cell : Cell Item)
    (item : Item) : (mem.copied cur cell item).get slot = some (some cur) := by
  rw [Memory.copied, Memory.get_increment]
  apply Memory.get_alloc
  rw [Memory.get_recount]
  exact cursor.get

section Relink

variable (holds : Holds mem none) (cursor : Cursor mem number before slot (some cur))
variable (found : mem.cell cur = some cell) (item : Item)

theorem copied_cells_length : (mem.recount cur (· - 1)).cells.length = mem.cells.length :=
  List.length_set

theorem body_copied (address : ℕ) : (mem.copied cur cell item).body address =
    if address = mem.cells.length then some (cell.next, item) else mem.body address := by
  rw [Memory.copied, Memory.body_increment, Memory.body_alloc, copied_cells_length,
    Memory.body_recount]

include holds cursor found

theorem next_copied (place : ℕ) (isNext : cell.next = some place) :
    (((mem.recount cur (· - 1)).alloc { next := cell.next, count := 1, item }).body
      place).isSome := by
  obtain ⟨rest, -, -, -, next⟩ := holds.after cursor found
  rw [Memory.body_alloc, Memory.body_recount]
  split
  · rfl
  · exact (next place isNext).1

theorem count_relink (address : ℕ) : (mem.relink slot cur cell item).count address =
    (if address = mem.cells.length then 1 else
      if address = cur then cell.count - 1 else mem.count address) +
        if cell.next = some address then 1 else 0 := by
  rw [Memory.relink, Memory.count_store (get_copied cursor cell item), Memory.copied,
    Memory.count_increment (next_copied holds cursor found item), Memory.count_alloc,
    copied_cells_length, Memory.count_recount found]

theorem relink_next {target : ℕ} (isNext : cell.next = some target) :
    ∃ after, (mem.relink slot cur cell item).cell target = some after ∧ 1 < after.count := by
  obtain ⟨rest, -, -, -, next⟩ := holds.after cursor found
  obtain ⟨allocated, notCur⟩ := next target isNext
  have counts := count_relink holds cursor found item target
  have positive := holds.live target allocated
  rw [if_pos isNext, if_neg notCur] at counts
  have shared : 1 < (mem.relink slot cur cell item).count target := by
    split at counts
    · rename_i isNew
      rw [isNew, Memory.body, Memory.cell_length] at allocated
      cases allocated
    · omega
  obtain ⟨after, isCell⟩ := Memory.cell_of_body (Memory.body_of_count (Nat.zero_lt_of_lt shared))
  refine ⟨after, isCell, ?_⟩
  rwa [Memory.count_of_cell isCell] at shared

theorem counted_relink (shared : 1 < cell.count) (address : ℕ) :
    (mem.relink slot cur cell item).pointers address +
        (if none = some address then 1 else 0) =
      (mem.relink slot cur cell item).count address := by
  have stored := Memory.pointers_store (get_copied cursor cell item)
    (some mem.cells.length) address
  have pointers : (mem.copied cur cell item).pointers address =
      mem.pointers address + if cell.next = some address then 1 else 0 := by
    rw [Memory.copied, Memory.pointers_increment _ (next_copied holds cursor found item),
      Memory.pointers_alloc, Memory.pointers_recount found]
  have count := count_relink holds cursor found item address
  have counted := holds.counted address
  obtain ⟨fresh, -⟩ := holds.length_unpointed
  have here := Memory.count_of_cell found
  have isOld : cur ≠ mem.cells.length := Nat.ne_of_lt (Memory.cell_lt found)
  rw [count]
  simp only [reduceCtorEq, if_false, Option.some.injEq, Nat.add_zero] at stored counted ⊢
  change (mem.relink slot cur cell item).pointers address + _ = _ at stored
  rw [pointers] at stored
  by_cases isCur : address = cur
  · subst isCur
    rw [if_neg isOld, if_pos rfl] at *
    simp only [if_neg (Ne.symm isOld)] at stored
    omega
  · by_cases isNew : address = mem.cells.length
    · subst isNew
      simp only [if_neg isOld, if_true] at stored ⊢
      omega
    · simp only [if_neg isNew, if_neg isCur, if_neg (Ne.symm isCur), if_neg (Ne.symm isNew)]
        at stored ⊢
      omega

theorem body_relink (address : ℕ) : (mem.relink slot cur cell item).body address =
    if slot = .next address then
      (mem.body address).map fun was => (some mem.cells.length, was.2)
    else if address = mem.cells.length then some (cell.next, item) else mem.body address := by
  rw [Memory.relink, Memory.body_store (get_copied cursor cell item), body_copied]
  by_cases here : slot = .next address
  · obtain ⟨rest, run, -⟩ := holds.after cursor found
    obtain ⟨start, -, earlier⟩ := cursor.run
    have old : address ≠ mem.cells.length := by
      rintro rfl
      exact length_not_passed earlier (cursor.place_mem here)
    rw [if_pos here, if_pos here, if_neg old]
  · rw [if_neg here, if_neg here]

theorem body_relink_of_kept {address : ℕ} (allocated : (mem.body address).isSome)
    (kept : address ∉ addresses before) :
    (mem.relink slot cur cell item).body address = mem.body address := by
  have old : address ≠ mem.cells.length := by
    rintro rfl
    rw [Memory.body, Memory.cell_length] at allocated
    cases allocated
  have elsewhere : slot ≠ .next address := fun here => kept (cursor.place_mem here)
  rw [body_relink holds cursor found, if_neg elsewhere, if_neg old]

theorem relink_frame : Frame mem (mem.relink slot cur cell item) number := by
  obtain ⟨length, roots⟩ :=
    cursor.roots_store (mem.copied cur cell item) (some mem.cells.length)
  have same : (mem.copied cur cell item).roots = mem.roots := Memory.roots_increment
  rw [same] at length roots
  exact cursor.frame holds length roots fun address allocated kept =>
    body_relink_of_kept holds cursor found item allocated kept

theorem relink_holds (shared : 1 < cell.count) : Holds (mem.relink slot cur cell item) none := by
  obtain ⟨rest, run, next, notAgain, -⟩ := holds.after cursor found
  refine ⟨counted_relink holds cursor found item shared, ?_, ?_⟩
  · intro address allocated
    rw [body_relink holds cursor found] at allocated
    rw [count_relink holds cursor found]
    by_cases isNew : address = mem.cells.length
    · rw [if_pos isNew]
      exact Nat.lt_of_lt_of_le Nat.one_pos (Nat.le_add_right _ _)
    · rw [if_neg isNew] at allocated ⊢
      by_cases isCur : address = cur
      · rw [if_pos isCur]
        omega
      · rw [if_neg isCur]
        have old : (mem.body address).isSome := by
          split at allocated
          · rwa [Option.isSome_map] at allocated
          · exact allocated
        have := holds.live address old
        omega
  · have copy : Run (mem.copied cur cell item).body (some mem.cells.length)
        ((mem.cells.length, item) :: rest) none := by
      refine .cons ?_ (next.congr ?_)
      · rw [body_copied, if_pos rfl]
      · intro address member
        rw [body_copied, if_neg]
        rintro rfl
        exact length_not_passed next member
    refine ends_store (get_copied cursor cell item) ?_ copy ?_
    · intro address allocated
      rw [Memory.copied, Memory.body_increment] at allocated ⊢
      have same : (mem.recount cur (· - 1)).body = mem.body := Memory.body_recount _
      exact ends_alloc (same ▸ holds.ends) (same ▸ next) address allocated
    · intro place here
      have owned := cursor.place_mem here
      obtain ⟨start, -, earlier⟩ := cursor.run
      intro member
      rcases List.mem_cons.mp member with rfl | member
      · exact length_not_passed earlier owned
      · exact cursor.apart_after run owned (List.mem_cons_of_mem _ member)

theorem relink_cursor : Cursor (mem.relink slot cur cell item) number
    (before ++ [(mem.cells.length, item)]) (.next mem.cells.length) cell.next := by
  obtain ⟨rest, run, next, notAgain, isNext⟩ := holds.after cursor found
  obtain ⟨start, -, earlier⟩ := cursor.run
  have kept : Cursor (mem.copied cur cell item) number before slot (some cur) := by
    apply cursor.congr
    · rw [Memory.copied, Memory.root, Memory.roots_increment]
      rfl
    · intro address member
      obtain ⟨notCur, notNext⟩ := passed_apart holds cursor found member
      have inside : address < (mem.recount cur (· - 1)).cells.length := by
        obtain ⟨old, isOld⟩ := Memory.cell_of_body (earlier.allocated member)
        rw [copied_cells_length]
        exact Memory.cell_lt isOld
      rw [Memory.copied, Memory.cell_increment_of_ne notNext, Memory.cell_alloc_of_lt inside,
        Memory.cell_recount_of_ne notCur]
  have goes : Run (mem.copied cur cell item).body (some cur) ((cur, cell.item) :: rest) none := by
    apply run.congr
    intro address member
    rw [body_copied, if_neg]
    rintro rfl
    exact length_not_passed run member
  have elsewhere : slot ≠ .next mem.cells.length := fun here =>
    length_not_passed earlier (cursor.place_mem here)
  have notNext : cell.next ≠ some mem.cells.length := by
    intro same
    have allocated := (isNext _ same).1
    rw [Memory.body, Memory.cell_length] at allocated
    cases allocated
  have isCopy : (mem.relink slot cur cell item).cell mem.cells.length =
      some { next := cell.next, count := 1, item } := by
    rw [Memory.relink, Memory.cell_store_of_ne elsewhere, Memory.copied,
      Memory.cell_increment_of_ne notNext, ← copied_cells_length, Memory.cell_alloc_self]
  exact .next (kept.store goes (some mem.cells.length)) isCopy (Nat.le_refl 1)

theorem relink_after {rest : List (ℕ × Item)} (next : Run mem.body cell.next rest none) :
    Run (mem.relink slot cur cell item).body cell.next rest none := by
  obtain ⟨passed, run⟩ := holds.run cursor.get
  obtain ⟨again, rfl, same⟩ := run.tail found
  obtain rfl := next.unique same
  apply next.congr
  intro address member
  apply body_relink_of_kept holds cursor found item (next.allocated member)
  intro owned
  exact cursor.apart_after run owned (List.mem_cons_of_mem _ member)

end Relink

/-- The slot's pointer moved past a shared cell. -/
def Memory.bypass (mem : Memory Item) (slot : Slot) (cur : ℕ) (cell : Cell Item) : Memory Item :=
  ((mem.store slot cell.next).recount cur (· - 1)).increment cell.next

section Bypass

variable (holds : Holds mem none) (cursor : Cursor mem number before slot (some cur))
variable (found : mem.cell cur = some cell)

include holds cursor found

theorem slot_ne_next : slot ≠ .next cur := by
  obtain ⟨rest, run, -⟩ := holds.after cursor found
  intro here
  exact cursor.apart_after run (cursor.place_mem here) List.mem_cons_self

theorem cell_stored (target : Option ℕ) : (mem.store slot target).cell cur = some cell := by
  rw [Memory.cell_store_of_ne (slot_ne_next holds cursor found), found]

theorem ends_stored (address : ℕ)
    (allocated : ((mem.store slot cell.next).body address).isSome) :
    ∃ passed, Run (mem.store slot cell.next).body (some address) passed none := by
  obtain ⟨rest, run, next, -⟩ := holds.after cursor found
  refine ends_store cursor.get holds.ends next ?_ address allocated
  intro place here member
  exact cursor.slot_not_after run here (List.mem_cons_of_mem _ member)

theorem bypass_next (place : ℕ) (isNext : cell.next = some place) :
    (((mem.store slot cell.next).recount cur (· - 1)).body place).isSome := by
  obtain ⟨rest, -, -, -, next⟩ := holds.after cursor found
  rw [Memory.body_recount, stored_isSome cursor]
  exact (next place isNext).1

theorem bypass_holds (shared : 1 < cell.count) : Holds (mem.bypass slot cur cell) none := by
  have stored := cell_stored holds cursor found cell.next
  have next := bypass_next holds cursor found
  have counts : ∀ address, (mem.bypass slot cur cell).count address =
      (if address = cur then cell.count - 1 else mem.count address) +
        if cell.next = some address then 1 else 0 := by
    intro address
    rw [Memory.bypass, Memory.count_increment next, Memory.count_recount stored,
      Memory.count_store cursor.get]
  have body : (mem.bypass slot cur cell).body = (mem.store slot cell.next).body := by
    rw [Memory.bypass, Memory.body_increment, Memory.body_recount]
  constructor
  · intro address
    have moved := Memory.pointers_store cursor.get cell.next address
    have counted := holds.counted address
    have here := Memory.count_of_cell found
    rw [counts, Memory.bypass, Memory.pointers_increment _ next, Memory.pointers_recount stored]
    simp only [reduceCtorEq, if_false, Option.some.injEq] at moved counted ⊢
    by_cases isCur : address = cur
    · subst isCur
      rw [if_pos rfl] at moved ⊢
      omega
    · rw [if_neg (Ne.symm isCur)] at moved
      rw [if_neg isCur]
      omega
  · intro address allocated
    rw [body, stored_isSome cursor] at allocated
    have := holds.live address allocated
    rw [counts]
    split
    · omega
    · omega
  · rw [body]
    exact ends_stored holds cursor found

omit found in
theorem bypass_frame : Frame mem (mem.bypass slot cur cell) number := by
  obtain ⟨length, roots⟩ := cursor.roots_store mem cell.next
  have same : (mem.bypass slot cur cell).roots = (mem.store slot cell.next).roots :=
    Memory.roots_increment
  rw [← same] at length roots
  refine cursor.frame holds length roots ?_
  intro address allocated kept
  rw [Memory.bypass, Memory.body_increment, Memory.body_recount,
    body_stored_of_kept cursor cell.next kept]

theorem bypass_cursor : Cursor (mem.bypass slot cur cell) number before slot cell.next := by
  obtain ⟨rest, run, next, -⟩ := holds.after cursor found
  apply (cursor.store run cell.next).congr
  · rw [Memory.bypass, Memory.root, Memory.roots_increment]
    rfl
  · intro address member
    obtain ⟨notCur, notNext⟩ := passed_apart holds cursor found member
    rw [Memory.bypass, Memory.cell_increment_of_ne notNext, Memory.cell_recount_of_ne notCur]

theorem bypass_after {rest : List (ℕ × Item)} (next : Run mem.body cell.next rest none) :
    Run (mem.bypass slot cur cell).body cell.next rest none := by
  obtain ⟨passed, run⟩ := holds.run cursor.get
  obtain ⟨again, rfl, same⟩ := run.tail found
  obtain rfl := next.unique same
  apply next.congr
  intro address member
  rw [Memory.bypass, Memory.body_increment, Memory.body_recount]
  apply body_stored_of_kept cursor
  intro owned
  exact cursor.apart_after run owned (List.mem_cons_of_mem _ member)

end Bypass

theorem ends_free (ends : ∀ address, (mem.body address).isSome →
      ∃ passed, Run mem.body (some address) passed none) (found : mem.cell cur = some cell)
    (unpointed : mem.pointers cur = 0) (address : ℕ)
    (allocated : ((mem.setCell cur none).body address).isSome) :
    ∃ passed, Run (mem.setCell cur none).body (some address) passed none := by
  rw [Memory.body_free found] at allocated
  have different : address ≠ cur := by
    rintro rfl
    rw [if_pos rfl] at allocated
    cases allocated
  rw [if_neg different] at allocated
  obtain ⟨passed, run⟩ := ends address allocated
  refine ⟨passed, run.congr ?_⟩
  intro other member
  rw [Memory.body_free found, if_neg]
  rintro rfl
  cases run with
  | @cons _ next _ item rest head run =>
      rcases List.mem_cons.mp member with here | later
      · exact different here.symm
      · obtain ⟨first, isFirst⟩ := Memory.cell_of_body allocated
        rw [Memory.body_of_cell isFirst, Option.some_inj, Prod.mk.injEq] at head
        have points : mem.get (.next address) = some next := by
          rw [Memory.get, isFirst, Option.map_some, head.1]
        obtain ⟨source, reaches, -⟩ := run.pointed (.next address) points later
        have := Memory.pointers_pos reaches
        omega

/-- The slot's pointer moved past a cell that has no other pointer, which is freed. -/
def Memory.unlink (mem : Memory Item) (slot : Slot) (cur : ℕ) (cell : Cell Item) : Memory Item :=
  (mem.store slot cell.next).setCell cur none

section Unlink

variable (holds : Holds mem none) (cursor : Cursor mem number before slot (some cur))
variable (found : mem.cell cur = some cell) (once : cell.count ≤ 1)

include holds cursor found

theorem pointers_unlink (address : ℕ) :
    (mem.unlink slot cur cell).pointers address + (if cur = address then 1 else 0) =
      mem.pointers address := by
  have moved := Memory.pointers_store cursor.get cell.next address
  have freed := Memory.pointers_setCell (cell_stored holds cursor found cell.next) none address
  simp only [Option.some.injEq, Option.map_none, reduceCtorEq, if_false] at moved freed
  rw [Memory.unlink]
  omega

include once

theorem unlink_holds : Holds (mem.unlink slot cur cell) none := by
  have stored := cell_stored holds cursor found cell.next
  have counts : ∀ address, (mem.unlink slot cur cell).count address =
      if address = cur then 0 else mem.count address := by
    intro address
    rw [Memory.unlink, Memory.count_free stored, Memory.count_store cursor.get]
  have here := Memory.count_of_cell found
  have one := holds.counted cur
  simp only [reduceCtorEq, if_false] at one
  constructor
  · intro address
    have moved := pointers_unlink holds cursor found address
    have counted := holds.counted address
    rw [counts]
    simp only [reduceCtorEq, if_false] at counted ⊢
    by_cases isCur : address = cur
    · subst isCur
      rw [if_pos rfl] at moved ⊢
      omega
    · rw [if_neg (Ne.symm isCur)] at moved
      rw [if_neg isCur]
      omega
  · intro address allocated
    rw [Memory.unlink, Memory.body_free stored] at allocated
    rw [counts]
    split at allocated
    · cases allocated
    · rename_i different
      rw [if_neg different]
      rw [stored_isSome cursor] at allocated
      exact holds.live address allocated
  · apply ends_free (ends_stored holds cursor found) stored
    have moved := Memory.pointers_store cursor.get cell.next cur
    obtain ⟨rest, -, -, -, next⟩ := holds.after cursor found
    have notSelf : cell.next ≠ some cur := fun same => (next cur same).2 rfl
    rw [if_pos rfl, if_neg notSelf] at moved
    omega

theorem unlink_frame : Frame mem (mem.unlink slot cur cell) number := by
  obtain ⟨length, roots⟩ := cursor.roots_store mem cell.next
  have onward : Cursor mem number (before ++ [(cur, cell.item)]) (.next cur) cell.next :=
    .next cursor found once
  refine onward.frame holds length roots ?_
  intro address allocated kept
  rw [addresses, List.map_append, List.mem_append, not_or] at kept
  have different : address ≠ cur := fun same => kept.2 (by simp [same])
  rw [Memory.unlink, Memory.body_free (cell_stored holds cursor found cell.next),
    if_neg different, body_stored_of_kept cursor cell.next kept.1]

omit once

theorem unlink_cursor : Cursor (mem.unlink slot cur cell) number before slot cell.next := by
  obtain ⟨rest, run, next, -⟩ := holds.after cursor found
  apply (cursor.store run cell.next).congr
  · rfl
  · intro address member
    rw [Memory.unlink, Memory.cell_setCell_of_ne (passed_apart holds cursor found member).1]

theorem unlink_after {rest : List (ℕ × Item)} (next : Run mem.body cell.next rest none) :
    Run (mem.unlink slot cur cell).body cell.next rest none := by
  obtain ⟨passed, run⟩ := holds.run cursor.get
  obtain ⟨again, rfl, same⟩ := run.tail found
  obtain rfl := next.unique same
  apply next.congr
  intro address member
  have different : address ≠ cur := by
    rintro rfl
    exact run.not_again member
  rw [Memory.unlink, Memory.body_free (cell_stored holds cursor found cell.next),
    if_neg different]
  apply body_stored_of_kept cursor
  intro owned
  exact cursor.apart_after run owned (List.mem_cons_of_mem _ member)

end Unlink

def Memory.overwrite (mem : Memory Item) (cur : ℕ) (cell : Cell Item) (item : Item) :
    Memory Item :=
  mem.setCell cur (some { cell with item })

section Overwrite

variable (holds : Holds mem none) (cursor : Cursor mem number before slot (some cur))
variable (found : mem.cell cur = some cell) (once : cell.count ≤ 1) (item : Item)

include found in
theorem cell_overwrite : (mem.overwrite cur cell item).cell cur = some { cell with item } :=
  Memory.cell_setCell_self found _

theorem cell_overwrite_of_ne {address : ℕ} (different : address ≠ cur) :
    (mem.overwrite cur cell item).cell address = mem.cell address :=
  Memory.cell_setCell_of_ne different _

theorem body_overwrite_of_ne {address : ℕ} (different : address ≠ cur) :
    (mem.overwrite cur cell item).body address = mem.body address := by
  rw [Memory.body, Memory.body, cell_overwrite_of_ne item different]

include holds found

theorem overwrite_holds : Holds (mem.overwrite cur cell item) none := by
  have counts : ∀ address, (mem.overwrite cur cell item).count address = mem.count address := by
    intro address
    by_cases here : address = cur
    · rw [here, Memory.count_of_cell (cell_overwrite found item), Memory.count_of_cell found]
    · rw [Memory.count, Memory.count, cell_overwrite_of_ne item here]
  have allocation : ∀ address, ((mem.overwrite cur cell item).body address).isSome =
      (mem.body address).isSome := by
    intro address
    by_cases here : address = cur
    · rw [here, Memory.body_of_cell (cell_overwrite found item), Memory.body_of_cell found]
      rfl
    · rw [body_overwrite_of_ne item here]
  constructor
  · intro address
    have moved := Memory.pointers_setCell found (some { cell with item }) address
    simp only [Option.map_some, Option.some.injEq] at moved
    rw [counts, ← holds.counted]
    have same : (mem.overwrite cur cell item).pointers address = mem.pointers address :=
      Nat.add_right_cancel moved
    rw [same]
  · intro address allocated
    rw [allocation] at allocated
    rw [counts]
    exact holds.live address allocated
  · intro address allocated
    rw [allocation] at allocated
    obtain ⟨passed, run⟩ := holds.ends address allocated
    apply run.redirect (fun other different _ => body_overwrite_of_ne item different)
    obtain ⟨way, fromHere⟩ := holds.ends cur (by rw [Memory.body_of_cell found]; rfl)
    obtain ⟨rest, rfl, next⟩ := fromHere.tail found
    refine ⟨_, .cons (Memory.body_of_cell (cell_overwrite found item)) (next.congr ?_)⟩
    intro other member
    apply body_overwrite_of_ne
    rintro rfl
    exact fromHere.not_again member

include cursor once

theorem overwrite_frame : Frame mem (mem.overwrite cur cell item) number := by
  have onward : Cursor mem number (before ++ [(cur, cell.item)]) (.next cur) cell.next :=
    .next cursor found once
  refine onward.frame holds rfl (fun _ _ => rfl) ?_
  intro address allocated kept
  rw [addresses, List.map_append, List.mem_append, not_or] at kept
  exact body_overwrite_of_ne item fun same => kept.2 (by simp [same])

theorem overwrite_cursor : Cursor (mem.overwrite cur cell item) number
    (before ++ [(cur, item)]) (.next cur) cell.next := by
  have kept : Cursor (mem.overwrite cur cell item) number before slot (some cur) := by
    apply cursor.congr
    · rfl
    · intro address member
      exact cell_overwrite_of_ne item (passed_apart holds cursor found member).1
  exact .next kept (cell_overwrite found item) once

omit once

theorem overwrite_after {rest : List (ℕ × Item)} (next : Run mem.body cell.next rest none) :
    Run (mem.overwrite cur cell item).body cell.next rest none := by
  obtain ⟨passed, run⟩ := holds.run cursor.get
  obtain ⟨again, rfl, same⟩ := run.tail found
  obtain rfl := next.unique same
  apply next.congr
  intro address member
  apply body_overwrite_of_ne
  rintro rfl
  exact run.not_again member

end Overwrite

end Write

end Links
