import FISim.Lib.Links
import Mathlib.Data.List.Perm.Subperm
import Mathlib.Tactic.Common

/-!
Lists of linked cells that share their tails, each behind a root of its own.  A
cursor walks from a root over cells that have a single pointer; what is written
there is seen from that root alone.
-/

namespace Links

variable {Item : Type}

/-- The cells that are passed on the way from one pointer to another. -/
inductive Run (body : ℕ → Option (Option ℕ × Item)) :
    Option ℕ → List (ℕ × Item) → Option ℕ → Prop
  | nil (pointer : Option ℕ) : Run body pointer [] pointer
  | cons {address : ℕ} {next last : Option ℕ} {item : Item} {rest : List (ℕ × Item)} :
      body address = some (next, item) → Run body next rest last →
        Run body (some address) ((address, item) :: rest) last

def addresses (passed : List (ℕ × Item)) : List ℕ := passed.map Prod.fst

namespace Run

variable {body body' : ℕ → Option (Option ℕ × Item)} {start middle last pointer : Option ℕ}
variable {first second passed : List (ℕ × Item)}

theorem append (before : Run body start first middle) (after : Run body middle second last) :
    Run body start (first ++ second) last := by
  induction before with
  | nil pointer => exact after
  | cons found _ ih => exact .cons found (ih after)

theorem split (run : Run body start (first ++ second) last) :
    ∃ middle, Run body start first middle ∧ Run body middle second last := by
  induction first generalizing start with
  | nil => exact ⟨start, .nil start, run⟩
  | cons item rest ih =>
      cases run with
      | cons found run =>
          obtain ⟨middle, before, after⟩ := ih run
          exact ⟨middle, .cons found before, after⟩

theorem congr (run : Run body start passed last)
    (same : ∀ address ∈ addresses passed, body' address = body address) :
    Run body' start passed last := by
  induction run with
  | nil pointer => exact .nil pointer
  | @cons address next last item rest found run ih =>
      refine .cons ?_ (ih fun other member => same other (List.mem_cons_of_mem _ member))
      rw [same address List.mem_cons_self, found]

theorem unique (one : Run body start first none) (two : Run body start second none) :
    first = second := by
  induction first generalizing start second with
  | nil =>
      cases one
      cases two
      rfl
  | cons item rest ih =>
      cases one with
      | cons found run =>
          cases two with
          | cons again other =>
              rw [found, Option.some_inj, Prod.mk.injEq] at again
              obtain ⟨rfl, rfl⟩ := again
              rw [ih run other]

theorem allocated (run : Run body start passed last) {address : ℕ}
    (member : address ∈ addresses passed) : (body address).isSome := by
  induction run with
  | nil pointer => cases member
  | @cons place next last item rest found run ih =>
      rcases List.mem_cons.mp member with rfl | later
      · simp only [found, Option.isSome_some]
      · exact ih later

theorem suffix (run : Run body start passed last) {address : ℕ}
    (member : address ∈ addresses passed) :
    ∃ before item after, passed = before ++ (address, item) :: after ∧
      Run body (some address) ((address, item) :: after) last := by
  obtain ⟨⟨place, item⟩, inside, rfl⟩ := List.mem_map.mp member
  obtain ⟨before, after, rfl⟩ := List.append_of_mem inside
  obtain ⟨middle, -, later⟩ := run.split
  cases later with
  | cons found later => exact ⟨before, item, after, rfl, .cons found later⟩

theorem not_again {address : ℕ} {item : Item}
    (run : Run body (some address) ((address, item) :: passed) none) :
    address ∉ addresses passed := by
  intro member
  cases run with
  | cons found run =>
      obtain ⟨before, again, after, same, later⟩ := run.suffix member
      have equal := (Run.cons found run).unique later
      have lengths := congrArg List.length equal
      rw [same] at lengths
      simp only [List.length_cons, List.length_append] at lengths
      omega

theorem nodup (run : Run body start passed none) : (addresses passed).Nodup := by
  induction passed generalizing start with
  | nil => exact List.nodup_nil
  | cons item rest ih =>
      cases run with
      | cons found run => exact List.nodup_cons.mpr ⟨(Run.cons found run).not_again, ih run⟩

theorem redirect {place : ℕ} (run : Run body start passed none)
    (elsewhere : ∀ address, address ≠ place → (body address).isSome →
      body' address = body address)
    (there : ∃ rest, Run body' (some place) rest none) :
    ∃ rest, Run body' start rest none := by
  induction passed generalizing start with
  | nil =>
      cases run
      exact ⟨[], .nil none⟩
  | cons item rest ih =>
      cases run with
      | @cons address next _ held _ found run =>
          by_cases here : address = place
          · rw [here]
            exact there
          · obtain ⟨later, goes⟩ := ih run
            refine ⟨(address, held) :: later, .cons ?_ goes⟩
            rw [elsewhere address here (by rw [found]; rfl), found]

end Run

/-- Every cell counts its pointers, together with one that is held in no slot; a cell has a
pointer as long as it is there, and its list ends. -/
structure Holds (mem : Memory Item) (held : Option ℕ) : Prop where
  counted : ∀ address, mem.pointers address + (if held = some address then 1 else 0) =
    mem.count address
  live : ∀ address, (mem.body address).isSome → 0 < mem.count address
  ends : ∀ address, (mem.body address).isSome → ∃ passed, Run mem.body (some address) passed none

theorem Memory.body_of_count {mem : Memory Item} {address : ℕ} (counts : 0 < mem.count address) :
    (mem.body address).isSome := by
  cases found : mem.cell address with
  | none =>
      rw [Memory.count, found] at counts
      exact absurd counts (by simp)
  | some cell => rw [Memory.body_of_cell found, Option.isSome_some]

namespace Holds

variable {mem : Memory Item} {held : Option ℕ}

theorem allocated (holds : Holds mem held) {slot : Slot} {target : ℕ}
    (found : mem.get slot = some (some target)) : (mem.body target).isSome := by
  apply Memory.body_of_count
  have positive := Memory.pointers_pos found
  have counted := holds.counted target
  omega

theorem run (holds : Holds mem held) {slot : Slot} {pointer : Option ℕ}
    (found : mem.get slot = some pointer) : ∃ passed, Run mem.body pointer passed none := by
  cases pointer with
  | none => exact ⟨[], .nil none⟩
  | some target => exact holds.ends target (holds.allocated found)

theorem length_unpointed (holds : Holds mem held) :
    mem.pointers mem.cells.length = 0 ∧ held ≠ some mem.cells.length := by
  have counted := holds.counted mem.cells.length
  rw [Memory.count, Memory.cell_length, Option.elim_none] at counted
  constructor
  · omega
  · rintro rfl
    rw [if_pos rfl] at counted
    omega

end Holds

theorem length_not_passed {mem : Memory Item} {start last : Option ℕ}
    {passed : List (ℕ × Item)} (run : Run mem.body start passed last) :
    mem.cells.length ∉ addresses passed := by
  intro member
  have allocated := run.allocated member
  rw [Memory.body, Memory.cell_length] at allocated
  cases allocated

theorem Run.length_le {mem : Memory Item} {start : Option ℕ} {passed : List (ℕ × Item)}
    (run : Run mem.body start passed none) : passed.length ≤ mem.cells.length := by
  have within : addresses passed ⊆ List.range mem.cells.length := by
    intro address member
    obtain ⟨cell, found⟩ := Memory.cell_of_body (run.allocated member)
    exact List.mem_range.mpr (Memory.cell_lt found)
  have fits := (List.Nodup.subperm run.nodup within).length_le
  rwa [addresses, List.length_map, List.length_range] at fits

theorem ends_alloc {mem : Memory Item} {cell : Cell Item} {passed : List (ℕ × Item)}
    (ends : ∀ address, (mem.body address).isSome →
      ∃ passed, Run mem.body (some address) passed none)
    (next : Run mem.body cell.next passed none) (address : ℕ)
    (allocated : ((mem.alloc cell).body address).isSome) :
    ∃ passed, Run (mem.alloc cell).body (some address) passed none := by
  have keeps : ∀ {start : Option ℕ} {passed : List (ℕ × Item)},
      Run mem.body start passed none → Run (mem.alloc cell).body start passed none := by
    intro start passed run
    apply run.congr
    intro other member
    obtain ⟨old, found⟩ := Memory.cell_of_body (run.allocated member)
    rw [Memory.body_of_cell (Memory.cell_alloc_of_some found cell), Memory.body_of_cell found]
  by_cases new : address = mem.cells.length
  · rw [new]
    exact ⟨_, .cons (Memory.body_of_cell (Memory.cell_alloc_self cell)) (keeps next)⟩
  · rw [Memory.body_alloc, if_neg new] at allocated
    obtain ⟨passed, run⟩ := ends address allocated
    exact ⟨passed, keeps run⟩

theorem ends_store {mem : Memory Item} {slot : Slot} {old pointer : Option ℕ}
    {passed : List (ℕ × Item)} (found : mem.get slot = some old)
    (ends : ∀ address, (mem.body address).isSome →
      ∃ passed, Run mem.body (some address) passed none)
    (target : Run mem.body pointer passed none)
    (outside : ∀ place, slot = .next place → place ∉ addresses passed) (address : ℕ)
    (allocated : ((mem.store slot pointer).body address).isSome) :
    ∃ passed, Run (mem.store slot pointer).body (some address) passed none := by
  have was : (mem.body address).isSome := by
    rw [Memory.body_store found] at allocated
    split at allocated
    · rwa [Option.isSome_map] at allocated
    · exact allocated
  obtain ⟨before, run⟩ := ends address was
  cases slot with
  | root number => exact ⟨before, run⟩
  | next place =>
      have elsewhere : ∀ other, other ≠ place →
          (mem.store (.next place) pointer).body other = mem.body other := by
        intro other different
        rw [Memory.body_store found, if_neg]
        intro same
        exact different (Slot.next.inj same).symm
      apply run.redirect (fun other different _ => elsewhere other different)
      obtain ⟨cell, isCell, -⟩ := Option.map_eq_some_iff.mp found
      refine ⟨_, .cons (Memory.body_of_cell (Memory.cell_store_next isCell pointer))
        (target.congr ?_)⟩
      intro other member
      apply elsewhere
      rintro rfl
      exact outside other rfl member

theorem Run.pointed {mem : Memory Item} {start last : Option ℕ} {passed : List (ℕ × Item)}
    (run : Run mem.body start passed last) (source : Slot) (points : mem.get source = some start)
    {place : ℕ} (inside : place ∈ addresses passed) :
    ∃ found, mem.get found = some (some place) ∧
      (found = source ∨ ∃ previous ∈ addresses passed, found = .next previous) := by
  induction run generalizing source with
  | nil pointer => cases inside
  | @cons head next last item rest found run ih =>
      obtain ⟨cell, isCell⟩ := Memory.cell_of_body (by rw [found]; rfl)
      rw [Memory.body_of_cell isCell, Option.some_inj, Prod.mk.injEq] at found
      rcases List.mem_cons.mp inside with rfl | inside
      · exact ⟨source, points, .inl rfl⟩
      · have next : mem.get (.next head) = some next := by
          rw [Memory.get, isCell, Option.map_some, found.1]
        obtain ⟨slot, again, way⟩ := ih (.next head) next inside
        refine ⟨slot, again, .inr ?_⟩
        rcases way with rfl | ⟨previous, earlier, rfl⟩
        · exact ⟨head, List.mem_cons_self, rfl⟩
        · exact ⟨previous, List.mem_cons_of_mem _ earlier, rfl⟩

/-- A walk from a root over cells of one pointer: what it has passed, the slot that it is at and
what this slot points to. -/
inductive Cursor (mem : Memory Item) (number : ℕ) :
    List (ℕ × Item) → Slot → Option ℕ → Prop
  | root {pointer : Option ℕ} : mem.root number = some pointer →
      Cursor mem number [] (.root number) pointer
  | next {before : List (ℕ × Item)} {slot : Slot} {address : ℕ} {cell : Cell Item} :
      Cursor mem number before slot (some address) → mem.cell address = some cell →
        cell.count ≤ 1 → Cursor mem number (before ++ [(address, cell.item)]) (.next address) cell.next

namespace Cursor

variable {mem mem' : Memory Item} {number : ℕ} {before : List (ℕ × Item)} {slot : Slot}
variable {pointer : Option ℕ}

theorem get (cursor : Cursor mem number before slot pointer) : mem.get slot = some pointer := by
  cases cursor with
  | root found => exact found
  | next cursor found once =>
      rw [Memory.get, found]
      rfl

theorem run (cursor : Cursor mem number before slot pointer) :
    ∃ start, mem.root number = some start ∧ Run mem.body start before pointer := by
  induction cursor with
  | root found => exact ⟨_, found, .nil _⟩
  | @next before slot address cell cursor found once ih =>
      obtain ⟨start, isRoot, run⟩ := ih
      exact ⟨start, isRoot, run.append (.cons (Memory.body_of_cell found) (.nil _))⟩

theorem congr (cursor : Cursor mem number before slot pointer)
    (root : mem'.root number = mem.root number)
    (same : ∀ address ∈ addresses before, mem'.cell address = mem.cell address) :
    Cursor mem' number before slot pointer := by
  induction cursor with
  | root found => exact .root (root.trans found)
  | @next before slot address cell cursor found once ih =>
      refine .next (ih fun other member => same other ?_) ?_ once
      · rw [addresses, List.map_append]
        exact List.mem_append_left _ member
      · rw [same address (by simp [addresses]), found]

theorem slot_eq (cursor : Cursor mem number before slot pointer) :
    slot = .root number ∨ ∃ address ∈ addresses before, slot = .next address := by
  cases cursor with
  | root found => exact .inl rfl
  | next cursor found once => exact .inr ⟨_, by simp [addresses], rfl⟩

theorem apart_after {after : List (ℕ × Item)} (cursor : Cursor mem number before slot pointer)
    (later : Run mem.body pointer after none) {address : ℕ}
    (member : address ∈ addresses before) : address ∉ addresses after := by
  obtain ⟨start, -, earlier⟩ := cursor.run
  have nodup := (earlier.append later).nodup
  rw [addresses, List.map_append] at nodup
  intro again
  exact (List.nodup_append.mp nodup).2.2 _ member _ again rfl

theorem before_nodup {after : List (ℕ × Item)} (cursor : Cursor mem number before slot pointer)
    (later : Run mem.body pointer after none) : (addresses before).Nodup := by
  obtain ⟨start, -, earlier⟩ := cursor.run
  have nodup := (earlier.append later).nodup
  rw [addresses, List.map_append] at nodup
  exact (List.nodup_append.mp nodup).1

theorem slot_not_after {after : List (ℕ × Item)} (cursor : Cursor mem number before slot pointer)
    (later : Run mem.body pointer after none) {place : ℕ} (here : slot = .next place) :
    place ∉ addresses after := by
  rcases cursor.slot_eq with root | ⟨address, member, same⟩
  · rw [root] at here
    cases here
  · rw [same] at here
    obtain rfl := Slot.next.inj here
    exact cursor.apart_after later member

theorem store (cursor : Cursor mem number before slot pointer) {after : List (ℕ × Item)}
    (later : Run mem.body pointer after none) (target : Option ℕ) :
    Cursor (mem.store slot target) number before slot target := by
  have nodup := cursor.before_nodup later
  cases cursor with
  | root found => exact .root (Memory.root_setRoot_self found _)
  | @next before slot address cell cursor found once =>
      have stored := Memory.cell_store_next found target
      have here : Cursor (mem.store (.next address) target) number before slot (some address) := by
        apply cursor.congr
        · rfl
        · intro other member
          apply Memory.cell_store_of_ne
          intro same
          obtain rfl := Slot.next.inj same
          rw [addresses, List.map_append] at nodup
          exact (List.nodup_append.mp nodup).2.2 _ member _ List.mem_cons_self rfl
      exact .next here stored once

theorem apart (cursor : Cursor mem number before slot pointer) (holds : Holds mem none)
    {other : ℕ} {start last : Option ℕ} {passed : List (ℕ × Item)} (different : other ≠ number)
    (isRoot : mem.root other = some start) (run : Run mem.body start passed last) {address : ℕ}
    (member : address ∈ addresses before) : address ∉ addresses passed := by
  induction cursor generalizing address with
  | root found => cases member
  | @next before slot place cell cursor found once ih =>
      rw [addresses, List.map_append] at member
      rcases List.mem_append.mp member with earlier | here
      · exact ih earlier
      · obtain rfl : address = place := by simpa using here
        intro inside
        obtain ⟨source, points, way⟩ := run.pointed (.root other) isRoot inside
        have counted := holds.counted address
        rw [Memory.count_of_cell found] at counted
        simp only [reduceCtorEq, if_false] at counted
        have same := Memory.slot_unique (by omega) cursor.get points
        rcases cursor.slot_eq with root | ⟨previous, earlier, isNext⟩
        · rcases way with rfl | ⟨another, _, rfl⟩
          · rw [root] at same
            exact different (Slot.root.inj same).symm
          · rw [root] at same
            cases same
        · rcases way with rfl | ⟨another, within, rfl⟩
          · rw [isNext] at same
            cases same
          · rw [isNext] at same
            obtain rfl := Slot.next.inj same
            exact ih earlier within

end Cursor

end Links
