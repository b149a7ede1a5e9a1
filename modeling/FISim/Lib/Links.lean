import Mathlib.Data.List.Count
import Mathlib.Data.List.Nodup

/-!
Singly linked cells that several roots share.  A slot is a place that holds a
pointer: a root, or the `next` of a cell.  A cell counts the slots that point to
it, and is freed when there is none.
-/

namespace Links

structure Cell (Item : Type) where
  next : Option ℕ
  count : ℕ
  item : Item
  deriving DecidableEq

/-- A `none` among the roots is a root that is gone, one among the cells a cell that is freed. -/
structure Memory (Item : Type) where
  roots : List (Option (Option ℕ)) := []
  cells : List (Option (Cell Item)) := []
  deriving DecidableEq

inductive Slot
  | root (number : ℕ)
  | next (address : ℕ)
  deriving DecidableEq

variable {Item : Type}

namespace Memory

def root (mem : Memory Item) (number : ℕ) : Option (Option ℕ) := mem.roots[number]?.join

def cell (mem : Memory Item) (address : ℕ) : Option (Cell Item) := mem.cells[address]?.join

def body (mem : Memory Item) (address : ℕ) : Option (Option ℕ × Item) :=
  (mem.cell address).map fun cell => (cell.next, cell.item)

def count (mem : Memory Item) (address : ℕ) : ℕ := (mem.cell address).elim 0 Cell.count

def get (mem : Memory Item) : Slot → Option (Option ℕ)
  | .root number => mem.root number
  | .next address => (mem.cell address).map Cell.next

def setRoot (mem : Memory Item) (number : ℕ) (root : Option (Option ℕ)) : Memory Item :=
  { mem with roots := mem.roots.set number root }

def setCell (mem : Memory Item) (address : ℕ) (cell : Option (Cell Item)) : Memory Item :=
  { mem with cells := mem.cells.set address cell }

def newRoot (mem : Memory Item) (root : Option ℕ) : Memory Item :=
  { mem with roots := mem.roots ++ [some root] }

-- The address of the new cell is the number of cells there were.
def alloc (mem : Memory Item) (cell : Cell Item) : Memory Item :=
  { mem with cells := mem.cells ++ [some cell] }

def store (mem : Memory Item) : Slot → Option ℕ → Memory Item
  | .root number, pointer => mem.setRoot number (some pointer)
  | .next address, pointer =>
      mem.setCell address ((mem.cell address).map fun cell => { cell with next := pointer })

def recount (mem : Memory Item) (address : ℕ) (count : ℕ → ℕ) : Memory Item :=
  mem.setCell address ((mem.cell address).map fun cell => { cell with count := count cell.count })

def increment (mem : Memory Item) : Option ℕ → Memory Item
  | none => mem
  | some address => mem.recount address (· + 1)

def links (mem : Memory Item) : List (Option (Option ℕ)) :=
  mem.roots ++ mem.cells.map (Option.map Cell.next)

def pointers (mem : Memory Item) (address : ℕ) : ℕ := mem.links.count (some (some address))

variable {mem : Memory Item} {number address other : ℕ}

theorem root_lt {root : Option ℕ} (found : mem.root number = some root) :
    number < mem.roots.length := by
  by_contra outside
  rw [Memory.root, List.getElem?_eq_none (by omega)] at found
  cases found

theorem cell_lt {cell : Cell Item} (found : mem.cell address = some cell) :
    address < mem.cells.length := by
  by_contra outside
  rw [Memory.cell, List.getElem?_eq_none (by omega)] at found
  cases found

theorem roots_getElem {root : Option ℕ} (found : mem.root number = some root) :
    mem.roots[number]? = some (some root) := by
  have inside := root_lt found
  rw [Memory.root, List.getElem?_eq_getElem inside] at found
  rw [List.getElem?_eq_getElem inside]
  exact congrArg some found

theorem cells_getElem {cell : Cell Item} (found : mem.cell address = some cell) :
    mem.cells[address]? = some (some cell) := by
  have inside := cell_lt found
  rw [Memory.cell, List.getElem?_eq_getElem inside] at found
  rw [List.getElem?_eq_getElem inside]
  exact congrArg some found

@[simp] theorem cell_setRoot (root : Option (Option ℕ)) :
    (mem.setRoot number root).cell address = mem.cell address := rfl

@[simp] theorem root_setCell (cell : Option (Cell Item)) :
    (mem.setCell address cell).root number = mem.root number := rfl

@[simp] theorem root_alloc (cell : Cell Item) :
    (mem.alloc cell).root number = mem.root number := rfl

theorem cell_setCell_of_ne (elsewhere : other ≠ address) (cell : Option (Cell Item)) :
    (mem.setCell address cell).cell other = mem.cell other := by
  simp only [Memory.cell, setCell, List.getElem?_set_ne elsewhere.symm]

theorem cell_setCell_self {old : Cell Item} (found : mem.cell address = some old)
    (cell : Option (Cell Item)) : (mem.setCell address cell).cell address = cell := by
  simp only [Memory.cell, setCell, List.getElem?_set_self (cell_lt found)]
  rfl

theorem cell_alloc_of_lt (inside : address < mem.cells.length) (cell : Cell Item) :
    (mem.alloc cell).cell address = mem.cell address := by
  simp only [Memory.cell, alloc, List.getElem?_append_left inside]

theorem cell_alloc_of_some {old : Cell Item} (found : mem.cell address = some old)
    (cell : Cell Item) : (mem.alloc cell).cell address = some old := by
  rw [cell_alloc_of_lt (cell_lt found), found]

theorem cell_alloc_self (cell : Cell Item) :
    (mem.alloc cell).cell mem.cells.length = some cell := by
  simp only [Memory.cell, alloc, List.getElem?_concat_length]
  rfl

theorem root_setRoot_of_ne (elsewhere : other ≠ number) (root : Option (Option ℕ)) :
    (mem.setRoot number root).root other = mem.root other := by
  simp only [Memory.root, setRoot, List.getElem?_set_ne elsewhere.symm]

theorem root_setRoot_self {old : Option ℕ} (found : mem.root number = some old)
    (root : Option (Option ℕ)) : (mem.setRoot number root).root number = root := by
  simp only [Memory.root, setRoot, List.getElem?_set_self (root_lt found)]
  rfl

theorem root_newRoot_of_some {old : Option ℕ} (found : mem.root number = some old)
    (root : Option ℕ) : (mem.newRoot root).root number = some old := by
  rw [← found]
  simp only [Memory.root, newRoot, List.getElem?_append_left (root_lt found)]

theorem root_newRoot_self (root : Option ℕ) :
    (mem.newRoot root).root mem.roots.length = some root := by
  simp only [Memory.root, newRoot, List.getElem?_concat_length]
  rfl

theorem cell_recount_of_ne (elsewhere : other ≠ address) (change : ℕ → ℕ) :
    (mem.recount address change).cell other = mem.cell other :=
  cell_setCell_of_ne elsewhere _

theorem cell_recount_self {cell : Cell Item} (found : mem.cell address = some cell)
    (change : ℕ → ℕ) :
    (mem.recount address change).cell address =
      some { cell with count := change cell.count } := by
  rw [recount, cell_setCell_self found, found]
  rfl

@[simp] theorem body_recount (change : ℕ → ℕ) :
    (mem.recount address change).body = mem.body := by
  funext other
  by_cases here : other = address
  · subst here
    cases found : mem.cell other with
    | none =>
        have missing : (mem.recount other change).cell other = none := by
          simp only [Memory.cell, recount, setCell, List.getElem?_set] at found ⊢
          split
          · split
            · simp [found]
            · rfl
          · exact found
        rw [body, body, missing, found]
    | some cell =>
        rw [body, body, cell_recount_self found, found]
        rfl
  · rw [body, body, cell_recount_of_ne here]

theorem body_of_cell {cell : Cell Item} (found : mem.cell address = some cell) :
    mem.body address = some (cell.next, cell.item) := by
  rw [body, found]
  rfl

theorem cell_of_body (allocated : (mem.body address).isSome) :
    ∃ cell, mem.cell address = some cell := by
  rw [body, Option.isSome_map] at allocated
  exact Option.isSome_iff_exists.mp allocated

theorem count_of_cell {cell : Cell Item} (found : mem.cell address = some cell) :
    mem.count address = cell.count := by
  rw [count, found]
  rfl

theorem cell_length : mem.cell mem.cells.length = none := by
  rw [cell, List.getElem?_eq_none (Nat.le_refl _)]
  rfl

theorem cell_alloc_of_ne (old : other ≠ mem.cells.length) (cell : Cell Item) :
    (mem.alloc cell).cell other = mem.cell other := by
  by_cases inside : other < mem.cells.length
  · exact cell_alloc_of_lt inside cell
  · rw [Memory.cell, Memory.cell, List.getElem?_eq_none, List.getElem?_eq_none (by omega)]
    simp only [alloc, List.length_append, List.length_singleton]
    omega

theorem body_alloc (cell : Cell Item) :
    (mem.alloc cell).body other =
      if other = mem.cells.length then some (cell.next, cell.item) else mem.body other := by
  by_cases new : other = mem.cells.length
  · rw [if_pos new, new]
    exact body_of_cell (cell_alloc_self cell)
  · rw [if_neg new, body, body, cell_alloc_of_ne new]

theorem count_alloc (cell : Cell Item) :
    (mem.alloc cell).count other =
      if other = mem.cells.length then cell.count else mem.count other := by
  by_cases new : other = mem.cells.length
  · rw [if_pos new, new]
    exact count_of_cell (cell_alloc_self cell)
  · rw [if_neg new, count, count, cell_alloc_of_ne new]

theorem count_recount {cell : Cell Item} (found : mem.cell address = some cell)
    (change : ℕ → ℕ) :
    (mem.recount address change).count other =
      if other = address then change cell.count else mem.count other := by
  by_cases here : other = address
  · rw [if_pos here, here]
    exact count_of_cell (cell_recount_self found change)
  · rw [if_neg here, count, count, cell_recount_of_ne here]

theorem body_free {cell : Cell Item} (found : mem.cell address = some cell) :
    (mem.setCell address none).body other = if other = address then none else mem.body other := by
  by_cases here : other = address
  · rw [if_pos here, here, body, cell_setCell_self found]
    rfl
  · rw [if_neg here, body, body, cell_setCell_of_ne here]

theorem count_free {cell : Cell Item} (found : mem.cell address = some cell) :
    (mem.setCell address none).count other = if other = address then 0 else mem.count other := by
  by_cases here : other = address
  · rw [if_pos here, here, count, cell_setCell_self found]
    rfl
  · rw [if_neg here, count, count, cell_setCell_of_ne here]

theorem cell_store_next {cell : Cell Item} (found : mem.cell address = some cell)
    (pointer : Option ℕ) :
    (mem.store (.next address) pointer).cell address = some { cell with next := pointer } := by
  rw [store, cell_setCell_self found, found]
  rfl

theorem cell_store_of_ne {slot : Slot} (elsewhere : slot ≠ .next address) (pointer : Option ℕ) :
    (mem.store slot pointer).cell address = mem.cell address := by
  cases slot with
  | root number => rfl
  | next place =>
      apply cell_setCell_of_ne
      rintro rfl
      exact elsewhere rfl

theorem body_store {slot : Slot} {old : Option ℕ} (found : mem.get slot = some old)
    (pointer : Option ℕ) :
    (mem.store slot pointer).body other =
      if slot = .next other then (mem.body other).map fun was => (pointer, was.2)
      else mem.body other := by
  by_cases here : slot = .next other
  · subst here
    obtain ⟨cell, isCell, -⟩ := Option.map_eq_some_iff.mp found
    rw [if_pos rfl, body_of_cell (cell_store_next isCell pointer), body_of_cell isCell]
    rfl
  · rw [if_neg here, body, body, cell_store_of_ne here]

theorem count_store {slot : Slot} {old : Option ℕ} (found : mem.get slot = some old)
    (pointer : Option ℕ) : (mem.store slot pointer).count other = mem.count other := by
  by_cases here : slot = .next other
  · subst here
    obtain ⟨cell, isCell, -⟩ := Option.map_eq_some_iff.mp found
    rw [count_of_cell (cell_store_next isCell pointer), count_of_cell isCell]
  · rw [count, count, cell_store_of_ne here]

@[simp] theorem get_recount {slot : Slot} (change : ℕ → ℕ) :
    (mem.recount address change).get slot = mem.get slot := by
  cases slot with
  | root number => rfl
  | next place =>
      have same : ((mem.recount address change).body place).map Prod.fst =
          (mem.body place).map Prod.fst := by rw [body_recount]
      simpa [get, body, Function.comp_def] using same

theorem get_alloc {slot : Slot} {pointer : Option ℕ} (found : mem.get slot = some pointer)
    (cell : Cell Item) : (mem.alloc cell).get slot = some pointer := by
  cases slot with
  | root number => exact found
  | next place =>
      obtain ⟨old, isCell, next⟩ := Option.map_eq_some_iff.mp found
      rw [get, cell_alloc_of_some isCell]
      exact congrArg some next

/-! What the operations do to the number of pointers. -/

theorem links_setRoot (root : Option (Option ℕ)) (inside : number < mem.roots.length) :
    (mem.setRoot number root).links = mem.links.set number root := by
  simp only [links, setRoot, List.set_append_left _ _ inside]

theorem links_setCell (cell : Option (Cell Item)) :
    (mem.setCell address cell).links =
      mem.links.set (mem.roots.length + address) (cell.map Cell.next) := by
  simp only [links, setCell, List.map_set]
  rw [List.set_append_right _ _ (by omega), Nat.add_sub_cancel_left]

theorem links_root {root : Option ℕ} (found : mem.root number = some root) :
    mem.links[number]? = some (some root) := by
  rw [links, List.getElem?_append_left (root_lt found), roots_getElem found]

theorem links_cell {cell : Cell Item} (found : mem.cell address = some cell) :
    mem.links[mem.roots.length + address]? = some (some cell.next) := by
  rw [links, List.getElem?_append_right (by omega), Nat.add_sub_cancel_left, List.getElem?_map,
    cells_getElem found]
  rfl

theorem count_set {Value : Type} [BEq Value] [LawfulBEq Value] [DecidableEq Value]
    {values : List Value} {index : ℕ} {old : Value} (found : values[index]? = some old) (new value : Value) :
    (values.set index new).count value + (if old = value then 1 else 0) =
      values.count value + (if new = value then 1 else 0) := by
  obtain ⟨inside, same⟩ := List.getElem?_eq_some_iff.mp found
  rw [List.count_set inside, same]
  have present : old = value → 0 < values.count value := by
    rintro rfl
    exact List.count_pos_iff.mpr (List.mem_of_getElem? found)
  by_cases was : old = value
  · have := present was
    simp only [was, beq_self_eq_true, if_true, beq_iff_eq]
    omega
  · simp only [was, beq_iff_eq, if_false]
    omega

theorem pointers_setRoot {old : Option ℕ} (found : mem.root number = some old)
    (root : Option (Option ℕ)) (target : ℕ) :
    (mem.setRoot number root).pointers target + (if old = some target then 1 else 0) =
      mem.pointers target + (if root = some (some target) then 1 else 0) := by
  have counted := count_set (links_root found) root (some (some target))
  simp only [Option.some.injEq] at counted
  rw [pointers, links_setRoot root (root_lt found)]
  exact counted

theorem pointers_setCell {old : Cell Item} (found : mem.cell address = some old)
    (cell : Option (Cell Item)) (target : ℕ) :
    (mem.setCell address cell).pointers target + (if old.next = some target then 1 else 0) =
      mem.pointers target + (if cell.map Cell.next = some (some target) then 1 else 0) := by
  have counted := count_set (links_cell found) (cell.map Cell.next) (some (some target))
  simp only [Option.some.injEq] at counted
  rw [pointers, links_setCell]
  exact counted

theorem pointers_newRoot (root : Option ℕ) (target : ℕ) :
    (mem.newRoot root).pointers target =
      mem.pointers target + (if root = some target then 1 else 0) := by
  simp only [pointers, links, newRoot, List.count_append, List.count_singleton, beq_iff_eq,
    Option.some_inj]
  omega

theorem pointers_alloc (cell : Cell Item) (target : ℕ) :
    (mem.alloc cell).pointers target =
      mem.pointers target + (if cell.next = some target then 1 else 0) := by
  simp only [pointers, links, alloc, List.count_append, List.map_append, List.map_cons,
    List.map_nil, Option.map_some, List.count_singleton, beq_iff_eq, Option.some_inj]
  omega

theorem pointers_recount {cell : Cell Item} (found : mem.cell address = some cell)
    (change : ℕ → ℕ) (target : ℕ) :
    (mem.recount address change).pointers target = mem.pointers target := by
  have counted := pointers_setCell found
    ((mem.cell address).map fun cell => { cell with count := change cell.count }) target
  rw [found] at counted
  simp only [Option.map_some, Option.some_inj] at counted
  rw [recount, found, Option.map_some]
  omega

theorem pointers_store {slot : Slot} {old : Option ℕ} (found : mem.get slot = some old)
    (pointer : Option ℕ) (target : ℕ) :
    (mem.store slot pointer).pointers target + (if old = some target then 1 else 0) =
      mem.pointers target + (if pointer = some target then 1 else 0) := by
  cases slot with
  | root number =>
      have counted := pointers_setRoot found (some pointer) target
      simp only [Option.some.injEq] at counted
      exact counted
  | next address =>
      obtain ⟨cell, isCell, next⟩ := Option.map_eq_some_iff.mp found
      have counted := pointers_setCell isCell
        ((mem.cell address).map fun cell => { cell with next := pointer }) target
      rw [isCell, next] at counted
      simp only [Option.map_some, Option.some_inj] at counted
      rw [store, isCell, Option.map_some]
      exact counted

theorem pointers_pos {slot : Slot} {target : ℕ} (found : mem.get slot = some (some target)) :
    0 < mem.pointers target := by
  have counted := pointers_store found none target
  simp only [if_true, reduceCtorEq, if_false] at counted
  omega

theorem slot_of_pointers {target : ℕ} (positive : 0 < mem.pointers target) :
    ∃ slot, mem.get slot = some (some target) := by
  rw [pointers, List.count_pos_iff, links, List.mem_append] at positive
  rcases positive with isRoot | isNext
  · obtain ⟨number, found⟩ := List.getElem?_of_mem isRoot
    refine ⟨.root number, ?_⟩
    rw [get, root, found]
    rfl
  · obtain ⟨old, member, next⟩ := List.mem_map.mp isNext
    obtain ⟨address, found⟩ := List.getElem?_of_mem member
    refine ⟨.next address, ?_⟩
    rw [get, cell, found]
    exact next

theorem get_store_of_ne {slot place : Slot} {old : Option ℕ} (found : mem.get slot = some old)
    (elsewhere : place ≠ slot) (pointer : Option ℕ) :
    (mem.store slot pointer).get place = mem.get place := by
  cases slot with
  | root number =>
      cases place with
      | root other =>
          exact root_setRoot_of_ne (fun same => elsewhere (congrArg Slot.root same)) _
      | next other => rfl
  | next address =>
      cases place with
      | root other => rfl
      | next other =>
          simp only [get, store]
          rw [cell_setCell_of_ne fun same => elsewhere (congrArg Slot.next same)]

theorem slot_unique {first second : Slot} {target : ℕ} (once : mem.pointers target ≤ 1)
    (one : mem.get first = some (some target)) (two : mem.get second = some (some target)) :
    first = second := by
  by_contra different
  have counted := pointers_store one none target
  have kept : (mem.store first none).get second = some (some target) := by
    rw [get_store_of_ne one (Ne.symm different), two]
  have left := pointers_pos kept
  simp only [if_true, reduceCtorEq, if_false] at counted
  omega

section Increment

variable {pointer : Option ℕ}

@[simp] theorem body_increment : (mem.increment pointer).body = mem.body := by
  cases pointer with
  | none => rfl
  | some target => exact body_recount _

@[simp] theorem roots_increment : (mem.increment pointer).roots = mem.roots := by
  cases pointer with
  | none => rfl
  | some target => rfl

@[simp] theorem get_increment {slot : Slot} : (mem.increment pointer).get slot = mem.get slot := by
  cases pointer with
  | none => rfl
  | some target => exact get_recount _

theorem cell_increment_of_ne (elsewhere : pointer ≠ some other) :
    (mem.increment pointer).cell other = mem.cell other := by
  cases pointer with
  | none => rfl
  | some target => exact cell_recount_of_ne (fun same => elsewhere (congrArg some same.symm)) _

theorem pointers_increment (target : ℕ) (there : ∀ place, pointer = some place →
    (mem.body place).isSome) : (mem.increment pointer).pointers target = mem.pointers target := by
  cases pointer with
  | none => rfl
  | some place =>
      obtain ⟨cell, found⟩ := cell_of_body (there place rfl)
      exact pointers_recount found _ target

theorem count_increment (there : ∀ place, pointer = some place → (mem.body place).isSome) :
    (mem.increment pointer).count other =
      mem.count other + (if pointer = some other then 1 else 0) := by
  cases pointer with
  | none => rfl
  | some place =>
      obtain ⟨cell, found⟩ := cell_of_body (there place rfl)
      rw [increment, count_recount found]
      by_cases here : other = place
      · rw [if_pos here, if_pos (congrArg some here.symm), here, count_of_cell found]
      · rw [if_neg here, if_neg fun same => here (Option.some.inj same).symm]
        rfl

end Increment

end Memory

end Links
