import FISim.PacketTags.Traversal

/-!
What each operation does to its list, and that it leaves the others alone.
-/

namespace FISim.PacketTags

open Links PacketTagList

section Traverse

variable {Tag TypeId : Type} [DecidableEq TypeId] {mem : TagMemory TypeId} {list : ℕ}
variable {tid : TypeId} {start : Option ℕ} {passed : List (ℕ × TagItem TypeId)}

/-- Where `COWTraverse` calls its writer. -/
structure Reached (mem : TagMemory TypeId) (list : ℕ) (tid : TypeId) (start : Option ℕ)
    (passed : List (ℕ × TagItem TypeId)) (after : TagMemory TypeId) (preMerge : Bool)
    (before rest : List (ℕ × TagItem TypeId)) (slot : Slot) (cur : ℕ)
    (cell : Cell (TagItem TypeId)) : Prop where
  holds : Holds after none
  frame : Frame mem after list
  cursor : Cursor after list before slot (some cur)
  isCell : after.cell cur = some cell
  next : Run after.body cell.next rest none
  isTid : cell.item.tid = tid
  items : passed.map Prod.snd = before.map Prod.snd ++ cell.item :: rest.map Prod.snd
  merge : if preMerge then cell.count ≤ 1 ∧ after = mem ∧
      search mem tid (fuel mem) (.root list) start = some (.found slot cur)
    else 1 < cell.count

theorem cowTraverse_cases (tid : TypeId) (holds : Holds mem none) (isRoot : mem.root list = some start)
    (run : Run mem.body start passed none)
    (small : ∀ entry ∈ passed, entry.2.data.length < 2 ^ 32 - 1) (writer : PacketTagList.Writer Tag TypeId) :
    (Tidless tid passed ∧ cowTraverse mem list tid writer = some (mem, none)) ∨
      ∃ after preMerge before rest slot cur cell,
        Reached mem list tid start passed after preMerge before rest slot cur cell ∧
          cowTraverse mem list tid writer =
            (writer after preMerge cur slot).map fun done => (done.1, some done.2) := by
  have enough : passed.length < fuel mem := Nat.lt_succ_of_le run.length_le
  unfold cowTraverse
  rw [isRoot, Option.bind_eq_bind, Option.bind_some]
  cases start with
  | none =>
      cases run
      refine .inl ⟨?_, rfl⟩
      intro entry member
      cases member
  | some first =>
      obtain ⟨stop, searched, stopped⟩ := search_stops tid run (.root isRoot) enough
      simp only [searched, Option.bind_eq_bind, Option.bind_some]
      cases stopped with
      | ended without => exact .inl ⟨without, rfl⟩
      | @found mid rest slot cur cell here cursor once isTid =>
          rw [List.nil_append] at cursor
          refine .inr ⟨mem, true, mid, rest, slot, cur, cell, ⟨holds, .refl mem list, cursor,
            here.isCell, here.next, isTid, ?_, ?_⟩, ?_⟩
          · rw [here.split, List.map_append]
            rfl
          · exact ⟨once, rfl, searched⟩
          · dsimp only
            rw [Option.map_eq_bind]
            rfl
      | @merge mid rest slot cur cell here cursor without shared =>
          rw [List.nil_append] at cursor
          have way : Run mem.body (some cur) ((cur, cell.item) :: rest) none :=
            .cons (Memory.body_of_cell here.isCell) here.next
          have shorter : ((cur, cell.item) :: rest).length < fuel mem :=
            Nat.lt_succ_of_le way.length_le
          rcases find_cases tid way shorter with
            ⟨found, none⟩ | ⟨_, _, _, _, found, there, isTid⟩
          · refine .inl ⟨?_, ?_⟩
            · intro entry member
              rw [here.split] at member
              rcases List.mem_append.mp member with earlier | later
              · exact without entry earlier
              · exact none entry later
            · simp only [found, Option.bind_some]
              rfl
          · simp only [found, Option.bind_some]
            have inside : ∃ entry ∈ (cur, cell.item) :: rest, entry.2.tid = tid := by
              rw [there.split]
              exact ⟨_, List.mem_append_right _ List.mem_cons_self, isTid⟩
            have smaller : ∀ entry ∈ (cur, cell.item) :: rest,
                entry.2.data.length < 2 ^ 32 - 1 := by
              intro entry member
              apply small
              rw [here.split]
              exact List.mem_append_right _ member
            obtain ⟨after, slot', cur', copied, ends⟩ := copyUntil_spec holds cursor here.isCell
              way shared inside smaller shorter
            obtain ⟨copies, left, other, place, isCell, next, merge, otherTid, items⟩ := ends.place
            refine .inr ⟨after, false, copies, left, slot', cur', other, ⟨ends.holds, ends.frame,
              place, isCell, next, otherTid, ?_, merge⟩, ?_⟩
            · rw [← items, here.split]
            · simp only [copied, Option.bind_some, isCell]
              rw [if_neg (by omega), Option.map_eq_bind]
              rfl

end Traverse

section Represents

variable {Tag TypeId : Type} [DecidableEq TypeId] [TagClass Tag TypeId]
variable {items pre post : List (TagItem TypeId)} {item : TagItem TypeId}
variable {tags : TypeId → Option Tag} {tag : Tag} {tid : TypeId}

omit [DecidableEq TypeId]

theorem represents_nil : Represents [] (fun _ => none : TypeId → Option Tag) where
  distinct := List.nodup_nil
  holds _ member := by cases member
  covers _ present := by cases present

theorem Represents.at (represents : Represents (pre ++ item :: post) tags) :
    ∃ tag, tags item.tid = some tag ∧ Encodes item tag :=
  represents.holds item (List.mem_append_right _ List.mem_cons_self)

theorem Represents.absent_iff (represents : Represents items tags) :
    tags tid = none ↔ ∀ item ∈ items, item.tid ≠ tid := by
  constructor
  · rintro none item member rfl
    obtain ⟨tag, present, -⟩ := represents.holds item member
    rw [none] at present
    cases present
  · intro without
    by_contra present
    obtain ⟨item, member, isTid⟩ :=
      List.mem_map.mp (represents.covers tid (Option.isSome_iff_ne_none.mpr present))
    exact without item member isTid

theorem Represents.small {passed : List (ℕ × TagItem TypeId)}
    (represents : Represents (passed.map Prod.snd) tags) :
    ∀ entry ∈ passed, entry.2.data.length < 2 ^ 32 - 1 := by
  intro entry member
  obtain ⟨tag, -, encodes⟩ := represents.holds entry.2 (List.mem_map_of_mem member)
  exact encodes.small

theorem Represents.absent_iff_tidless {passed : List (ℕ × TagItem TypeId)}
    (represents : Represents (passed.map Prod.snd) tags) :
    tags tid = none ↔ Tidless tid passed := by
  rw [represents.absent_iff]
  constructor
  · exact fun without entry member => without _ (List.mem_map_of_mem member)
  · intro without item member
    obtain ⟨entry, inside, rfl⟩ := List.mem_map.mp member
    exact without entry inside

theorem Represents.apart (represents : Represents (pre ++ item :: post) tags)
    {other : TagItem TypeId} (member : other ∈ pre ++ post) : other.tid ≠ item.tid := by
  have distinct := represents.distinct
  rw [List.map_append, List.map_cons] at distinct
  obtain ⟨-, behind, apart⟩ := List.nodup_append.mp distinct
  rcases List.mem_append.mp member with earlier | later
  · exact apart _ (List.mem_map_of_mem earlier) _ List.mem_cons_self
  · intro same
    apply (List.nodup_cons.mp behind).1
    rw [← same]
    exact List.mem_map_of_mem later

variable [DecidableEq TypeId]

theorem Represents.erase (represents : Represents (pre ++ item :: post) tags) :
    Represents (pre ++ post) (Function.update tags item.tid none) where
  distinct := by
    refine List.Nodup.sublist ?_ represents.distinct
    rw [List.map_append, List.map_append, List.map_cons]
    exact (List.sublist_cons_self _ _).append_left _
  holds other member := by
    rw [Function.update_of_ne (represents.apart member)]
    apply represents.holds
    rcases List.mem_append.mp member with earlier | later
    · exact List.mem_append_left _ earlier
    · exact List.mem_append_right _ (List.mem_cons_of_mem _ later)
  covers tid present := by
    have different : tid ≠ item.tid := by
      rintro rfl
      rw [Function.update_self] at present
      cases present
    rw [Function.update_of_ne different] at present
    have member := represents.covers tid present
    rw [List.map_append, List.map_cons] at member
    rw [List.map_append, List.mem_append]
    rcases List.mem_append.mp member with earlier | here
    · exact .inl earlier
    · exact .inr (List.mem_of_ne_of_mem different here)

theorem Represents.write (represents : Represents (pre ++ item :: post) tags)
    {written : TagItem TypeId} (same : written.tid = item.tid) (encodes : Encodes written tag) :
    Represents (pre ++ written :: post) (Function.update tags item.tid (some tag)) where
  distinct := by
    have distinct := represents.distinct
    rw [List.map_append, List.map_cons] at distinct ⊢
    rwa [same]
  holds other member := by
    have cases : other = written ∨ other ∈ pre ++ post := by
      rcases List.mem_append.mp member with earlier | later
      · exact .inr (List.mem_append_left _ earlier)
      · rcases List.mem_cons.mp later with here | later
        · exact .inl here
        · exact .inr (List.mem_append_right _ later)
    rcases cases with rfl | kept
    · rw [same, Function.update_self]
      exact ⟨tag, rfl, encodes⟩
    · rw [Function.update_of_ne (represents.apart kept)]
      apply represents.holds
      rcases List.mem_append.mp kept with earlier | later
      · exact List.mem_append_left _ earlier
      · exact List.mem_append_right _ (List.mem_cons_of_mem _ later)
  covers tid present := by
    rw [List.map_append, List.map_cons, same]
    by_cases here : tid = item.tid
    · rw [here]
      exact List.mem_append_right _ List.mem_cons_self
    · rw [Function.update_of_ne here] at present
      have member := represents.covers tid present
      rwa [List.map_append, List.map_cons] at member

theorem Represents.push (represents : Represents items tags) (absent : tags item.tid = none)
    (encodes : Encodes item tag) :
    Represents (item :: items) (Function.update tags item.tid (some tag)) where
  distinct := by
    rw [List.map_cons, List.nodup_cons]
    refine ⟨?_, represents.distinct⟩
    intro member
    obtain ⟨other, inside, same⟩ := List.mem_map.mp member
    exact represents.absent_iff.mp absent other inside same
  holds other member := by
    rcases List.mem_cons.mp member with rfl | later
    · rw [Function.update_self]
      exact ⟨tag, rfl, encodes⟩
    · rw [Function.update_of_ne (represents.absent_iff.mp absent other later)]
      exact represents.holds other later
  covers tid present := by
    rw [List.map_cons, List.mem_cons]
    by_cases here : tid = item.tid
    · exact .inl here
    · rw [Function.update_of_ne here] at present
      exact .inr (represents.covers tid present)

end Represents

section Writers

variable {Tag TypeId : Type} [DecidableEq TypeId] [TagClass Tag TypeId] [LawfulTags Tag]
variable {mem after : TagMemory TypeId} {list : ℕ} {tid : TypeId} {start : Option ℕ}
variable {passed before rest : List (ℕ × TagItem TypeId)} {preMerge : Bool} {slot : Slot} {cur : ℕ}
variable {cell : Cell (TagItem TypeId)} {tag object : Tag}

omit [DecidableEq TypeId] [TagClass Tag TypeId] [LawfulTags Tag] in
theorem lists_of_cursor {pointer : Option ℕ} (cursor : Cursor mem list before slot pointer)
    (run : Run mem.body pointer rest none) :
    Lists mem list (before.map Prod.snd ++ rest.map Prod.snd) := by
  obtain ⟨start, isRoot, earlier⟩ := cursor.run
  exact ⟨start, before ++ rest, isRoot, earlier.append run, List.map_append⟩

omit [DecidableEq TypeId] in
theorem Encodes.deserialize (encodes : Encodes cell.item tag)
    (same : TagClass.getInstanceTypeId object = TagClass.getInstanceTypeId tag) :
    ∃ got, TagClass.deserialize cell.item.data object = some got ∧ SameTag got tag := by
  obtain ⟨rest, data⟩ := encodes.data
  obtain ⟨got, read, typeId, serialized⟩ := LawfulTags.reads tag object rest same
  rw [data] at read
  exact ⟨got, read, typeId, serialized⟩

theorem removeWriter_spec
    (reached : Reached mem list tid start passed after preMerge before rest slot cur cell)
    (encodes : Encodes cell.item tag)
    (same : TagClass.getInstanceTypeId object = TagClass.getInstanceTypeId tag) :
    ∃ done got, removeWriter object after preMerge cur slot = some (done, got) ∧
      SameTag got tag ∧ Holds done none ∧ Frame mem done list ∧
        Lists done list (before.map Prod.snd ++ rest.map Prod.snd) := by
  obtain ⟨got, read, sameTag⟩ := encodes.deserialize same
  have holds := reached.holds
  have cursor := reached.cursor
  have found := reached.isCell
  have merge := reached.merge
  have stored := cell_stored holds cursor found cell.next
  unfold removeWriter
  simp only [found, read, Option.bind_eq_bind, Option.bind_some]
  cases preMerge with
  | true =>
      obtain ⟨once, -, -⟩ := merge
      refine ⟨after.unlink slot cur cell, got, ?_, sameTag, unlink_holds holds cursor found once,
        reached.frame.trans (unlink_frame holds cursor found once), ?_⟩
      · simp only [free, stored, if_true, Option.bind_eq_bind, Option.bind_some]
        rfl
      · exact lists_of_cursor (unlink_cursor holds cursor found)
          (unlink_after holds cursor found reached.next)
  | false =>
      have shared : 1 < cell.count := merge
      refine ⟨after.bypass slot cur cell, got, ?_, sameTag, bypass_holds holds cursor found shared,
        reached.frame.trans (bypass_frame holds cursor), ?_⟩
      · rw [countNext_eq (bypass_next holds cursor found)]
        rfl
      · exact lists_of_cursor (bypass_cursor holds cursor found)
          (bypass_after holds cursor found reached.next)

theorem replaceWriter_spec
    (reached : Reached mem list tid start passed after preMerge before rest slot cur cell)
    (encodes : Encodes cell.item object) (same : TagClass.getInstanceTypeId tag = cell.item.tid)
    (fits : preMerge = true → (TagClass.serialize tag).length ≤ cell.item.data.length) :
    ∃ done item, replaceWriter tag after preMerge cur slot = some (done, tag) ∧
      item.tid = cell.item.tid ∧ Encodes item tag ∧ Holds done none ∧ Frame mem done list ∧
        Lists done list (before.map Prod.snd ++ item :: rest.map Prod.snd) := by
  have holds := reached.holds
  have cursor := reached.cursor
  have found := reached.isCell
  have merge := reached.merge
  unfold replaceWriter
  simp only [found, Option.bind_eq_bind, Option.bind_some]
  cases preMerge with
  | true =>
      obtain ⟨once, -, -⟩ := merge
      have room := fits rfl
      let item : TagItem TypeId := { cell.item with
        data := TagClass.serialize tag ++ cell.item.data.drop (TagClass.serialize tag).length }
      refine ⟨after.overwrite cur cell item, item, ?_, rfl, ?_, overwrite_holds holds found item,
        reached.frame.trans (overwrite_frame holds cursor found once item), ?_⟩
      · simp only [writeOver, room, if_true, Option.bind_some]
        rfl
      · refine ⟨same.symm, List.prefix_append _ _, ?_⟩
        have small := encodes.small
        rw [List.length_append, List.length_drop]
        omega
      · have lists := lists_of_cursor (overwrite_cursor holds cursor found once item)
          (overwrite_after holds cursor found item reached.next)
        rwa [List.map_append, List.append_assoc] at lists
  | false =>
      have shared : 1 < cell.count := merge
      let item : TagItem TypeId :=
        { tid := TagClass.getInstanceTypeId tag, data := TagClass.serialize tag }
      have small : item.data.length < 2 ^ 32 - 1 := LawfulTags.small tag
      refine ⟨after.relink slot cur cell item, item, ?_, same, ?_,
        relink_holds holds cursor found item shared,
        reached.frame.trans (relink_frame holds cursor found item), ?_⟩
      · have created := createTagData_eq (after.recount cur (· - 1)) cell.next small
        have counted := countNext_eq (next_copied holds cursor found item)
        simp only [Bool.false_eq_true, if_false]
        rw [created, Option.bind_some, counted]
        rfl
      · exact ⟨rfl, List.prefix_refl _, small⟩
      · have lists := lists_of_cursor (relink_cursor holds cursor found item)
          (relink_after holds cursor found item reached.next)
        rwa [List.map_append, List.append_assoc] at lists

end Writers

end FISim.PacketTags
