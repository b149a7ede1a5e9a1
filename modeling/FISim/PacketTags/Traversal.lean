import FISim.PacketTags.Family

/-!
What the loops over a list come to: the search for a tag or a merge, and the copying
up to the tag.
-/

namespace FISim.PacketTags

open Links PacketTagList

variable {TypeId : Type} {mem : TagMemory TypeId} {list : ℕ}
variable {tid : TypeId} {before passed : List (ℕ × TagItem TypeId)} {slot : Slot}
variable {pointer : Option ℕ} {turns : ℕ}

def Tidless (tid : TypeId) (passed : List (ℕ × TagItem TypeId)) : Prop :=
  ∀ entry ∈ passed, entry.2.tid ≠ tid

/-- A cell on the way, in the middle of what is passed. -/
structure At (mem : TagMemory TypeId) (passed mid rest : List (ℕ × TagItem TypeId)) (cur : ℕ)
    (cell : Cell (TagItem TypeId)) : Prop where
  split : passed = mid ++ (cur, cell.item) :: rest
  isCell : mem.cell cur = some cell
  next : Run mem.body cell.next rest none

inductive Stopped (mem : TagMemory TypeId) (list : ℕ) (tid : TypeId)
    (before passed : List (ℕ × TagItem TypeId)) : Stop → Prop
  | ended : Tidless tid passed → Stopped mem list tid before passed .ended
  | merge {mid rest : List (ℕ × TagItem TypeId)} {slot : Slot} {cur : ℕ}
      {cell : Cell (TagItem TypeId)} : At mem passed mid rest cur cell →
        Cursor mem list (before ++ mid) slot (some cur) → Tidless tid mid → 1 < cell.count →
          Stopped mem list tid before passed (.merge slot cur)
  | found {mid rest : List (ℕ × TagItem TypeId)} {slot : Slot} {cur : ℕ}
      {cell : Cell (TagItem TypeId)} : At mem passed mid rest cur cell →
        Cursor mem list (before ++ mid) slot (some cur) → cell.count ≤ 1 → cell.item.tid = tid →
          Stopped mem list tid before passed (.found slot cur)

theorem Stopped.cons {cur : ℕ} {cell : Cell (TagItem TypeId)}
    {rest : List (ℕ × TagItem TypeId)} {stop : Stop} (other : cell.item.tid ≠ tid)
    (stopped : Stopped mem list tid (before ++ [(cur, cell.item)]) rest stop) :
    Stopped mem list tid before ((cur, cell.item) :: rest) stop := by
  have passes : ∀ {mid : List (ℕ × TagItem TypeId)}, Tidless tid mid →
      Tidless tid ((cur, cell.item) :: mid) := by
    intro mid none entry member
    rcases List.mem_cons.mp member with rfl | later
    · exact other
    · exact none entry later
  have joined : ∀ mid : List (ℕ × TagItem TypeId),
      before ++ [(cur, cell.item)] ++ mid = before ++ (cur, cell.item) :: mid := by
    intro mid
    rw [List.append_assoc]
    rfl
  cases stopped with
  | ended without => exact .ended (passes without)
  | @merge mid after slot place found here cursor without shared =>
      rw [joined] at cursor
      have split : (cur, cell.item) :: rest =
          ((cur, cell.item) :: mid) ++ (place, found.item) :: after := by
        rw [here.split]
        rfl
      exact .merge ⟨split, here.isCell, here.next⟩ cursor (passes without) shared
  | @found mid after slot place found here cursor once same =>
      rw [joined] at cursor
      have split : (cur, cell.item) :: rest =
          ((cur, cell.item) :: mid) ++ (place, found.item) :: after := by
        rw [here.split]
        rfl
      exact .found ⟨split, here.isCell, here.next⟩ cursor once same

theorem createTagData_eq (mem : TagMemory TypeId) (next : Option ℕ) {item : TagItem TypeId}
    (small : item.data.length < 2 ^ 32 - 1) :
    createTagData mem next item = some (mem.alloc { next, count := 1, item }) :=
  if_pos small

theorem countNext_eq (there : ∀ place, pointer = some place → (mem.body place).isSome) :
    countNext mem pointer = some (mem.increment pointer) := by
  cases pointer with
  | none => rfl
  | some address =>
      obtain ⟨cell, found⟩ := Memory.cell_of_body (there address rfl)
      rw [countNext, found]
      rfl

variable [DecidableEq TypeId]

theorem search_stops (tid : TypeId) (run : Run mem.body pointer passed none)
    (cursor : Cursor mem list before slot pointer) (enough : passed.length < turns) :
    ∃ stop, search mem tid turns slot pointer = some stop ∧
      Stopped mem list tid before passed stop := by
  induction turns generalizing before slot pointer passed with
  | zero => omega
  | succ turns ih =>
      cases run with
      | nil => exact ⟨.ended, rfl, .ended fun entry member => by cases member⟩
      | @cons cur next _ item rest found run =>
          obtain ⟨cell, isCell⟩ := Memory.cell_of_body (by rw [found]; rfl)
          rw [Memory.body_of_cell isCell, Option.some_inj, Prod.mk.injEq] at found
          obtain ⟨rfl, rfl⟩ := found
          have here : At mem ((cur, cell.item) :: rest) [] rest cur cell := ⟨rfl, isCell, run⟩
          have start : Cursor mem list (before ++ []) slot (some cur) := by
            rw [List.append_nil]
            exact cursor
          unfold search
          simp only [isCell, Option.bind_eq_bind, Option.bind_some]
          by_cases shared : cell.count > 1
          · rw [if_pos shared]
            exact ⟨_, rfl, .merge here start (fun entry member => by cases member) shared⟩
          · rw [if_neg shared]
            by_cases same : cell.item.tid = tid
            · rw [if_pos same]
              exact ⟨_, rfl, .found here start (by omega) same⟩
            · rw [if_neg same]
              have onward := Cursor.next cursor isCell (by omega)
              rw [List.length_cons] at enough
              obtain ⟨stop, searched, stopped⟩ := ih run onward (by omega)
              exact ⟨stop, searched, stopped.cons same⟩

theorem find_cases (tid : TypeId) (run : Run mem.body pointer passed none) (enough : passed.length < turns) :
    (find mem tid turns pointer = some none ∧ Tidless tid passed) ∨
      ∃ mid rest cur cell, find mem tid turns pointer = some (some cell) ∧
        At mem passed mid rest cur cell ∧ cell.item.tid = tid := by
  induction turns generalizing pointer passed with
  | zero => omega
  | succ turns ih =>
      cases run with
      | nil => exact .inl ⟨rfl, fun entry member => by cases member⟩
      | @cons cur next _ item rest found run =>
          obtain ⟨cell, isCell⟩ := Memory.cell_of_body (by rw [found]; rfl)
          rw [Memory.body_of_cell isCell, Option.some_inj, Prod.mk.injEq] at found
          obtain ⟨rfl, rfl⟩ := found
          unfold find
          simp only [isCell, Option.bind_eq_bind, Option.bind_some]
          by_cases same : cell.item.tid = tid
          · rw [if_pos same]
            exact .inr ⟨[], rest, cur, cell, rfl, ⟨rfl, isCell, run⟩, same⟩
          · rw [if_neg same]
            rw [List.length_cons] at enough
            rcases ih run (by omega) with ⟨none, without⟩ | ⟨mid, after, place, other, found, here, tid⟩
            · refine .inl ⟨none, ?_⟩
              intro entry member
              rcases List.mem_cons.mp member with rfl | later
              · exact same
              · exact without entry later
            · refine .inr ⟨(cur, cell.item) :: mid, after, place, other, found, ?_, tid⟩
              refine ⟨?_, here.isCell, here.next⟩
              rw [here.split]
              rfl

/-- The copying loop ends at the tag, with a list of its own up to there. -/
structure Copied (mem : TagMemory TypeId) (list : ℕ) (tid : TypeId)
    (before passed : List (ℕ × TagItem TypeId)) (after : TagMemory TypeId) (slot : Slot)
    (cur : ℕ) : Prop where
  holds : Holds after none
  frame : Frame mem after list
  place : ∃ copies rest cell, Cursor after list copies slot (some cur) ∧
    after.cell cur = some cell ∧ Run after.body cell.next rest none ∧ 1 < cell.count ∧
      cell.item.tid = tid ∧ (before ++ passed).map Prod.snd =
        copies.map Prod.snd ++ cell.item :: rest.map Prod.snd

theorem copyUntil_spec {cur : ℕ} {cell : Cell (TagItem TypeId)} (holds : Holds mem none)
    (cursor : Cursor mem list before slot (some cur)) (found : mem.cell cur = some cell)
    (run : Run mem.body (some cur) passed none) (shared : 1 < cell.count)
    (inside : ∃ entry ∈ passed, entry.2.tid = tid)
    (small : ∀ entry ∈ passed, entry.2.data.length < 2 ^ 32 - 1)
    (enough : passed.length < turns) :
    ∃ after slot' cur', copyUntil tid turns mem slot cur = some (after, slot', cur') ∧
      Copied mem list tid before passed after slot' cur' := by
  induction turns generalizing mem before slot cur cell passed with
  | zero => omega
  | succ turns ih =>
      obtain ⟨rest, rfl, next⟩ := run.tail found
      unfold copyUntil
      simp only [found, Option.bind_eq_bind, Option.bind_some]
      by_cases same : cell.item.tid = tid
      · rw [if_pos same]
        exact ⟨mem, slot, cur, rfl, holds, .refl mem list, before, rest, cell, cursor, found, next,
          shared, same, by simp⟩
      · rw [if_neg same, if_neg (by omega)]
        have later : ∃ entry ∈ rest, entry.2.tid = tid := by
          obtain ⟨entry, member, tid⟩ := inside
          rcases List.mem_cons.mp member with rfl | later
          · exact absurd tid same
          · exact ⟨entry, later, tid⟩
        obtain ⟨target, isNext⟩ : ∃ target, cell.next = some target := by
          cases pointer : cell.next with
          | none =>
              rw [pointer] at next
              cases next
              obtain ⟨entry, member, -⟩ := later
              cases member
          | some target => exact ⟨target, rfl⟩
        have isSmall := small _ List.mem_cons_self
        have there := next_copied holds cursor found cell.item
        have created := createTagData_eq (mem.recount cur (· - 1)) cell.next isSmall
        have counted := countNext_eq there
        rw [isNext] at counted
        rw [created, Option.bind_some]
        simp only [isNext] at counted ⊢
        rw [Option.bind_some, counted, Option.bind_some]
        obtain ⟨nextCell, isNextCell, nextShared⟩ :=
          relink_next holds cursor found cell.item isNext
        have linked : (((mem.recount cur (· - 1)).alloc
            { next := some target, count := 1, item := cell.item }).increment (some target)).store
              slot (some mem.cells.length) = mem.relink slot cur cell cell.item := by
          simp only [Memory.relink, Memory.copied, isNext]
        rw [linked]
        have onward := relink_cursor holds cursor found cell.item
        have behind := relink_after holds cursor found cell.item next
        rw [isNext] at onward behind
        rw [List.length_cons] at enough
        obtain ⟨after, slot', cur', copied, ends⟩ := ih (relink_holds holds cursor found _ shared)
          onward isNextCell behind nextShared later
          (fun entry member => small entry (List.mem_cons_of_mem _ member)) (by omega)
        refine ⟨after, slot', cur', copied, ends.holds,
          (relink_frame holds cursor found cell.item).trans ends.frame, ?_⟩
        obtain ⟨copies, left, other, place, isCell, way, merge, isTid, items⟩ := ends.place
        refine ⟨copies, left, other, place, isCell, way, merge, isTid, ?_⟩
        rw [← items]
        simp

end FISim.PacketTags
