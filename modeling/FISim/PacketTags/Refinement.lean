import FISim.PacketTags.CybertwinTags
import FISim.PacketTags.Release

/-!
Packet tag lists are maps.  What each operation of a family does is what the same
operation does to the family of maps, and a family refuses nothing but a tag that is
rewritten in place and does not fit.
-/

namespace FISim.PacketTags

open Links PacketTagList Transition

variable {Tag TypeId : Type} [DecidableEq TypeId] [TagClass Tag TypeId]
variable {family : Family Tag TypeId} {maps reached : Maps Tag TypeId} {list : ℕ}
variable {tags : TypeId → Option Tag}

structure Shows (family : Family Tag TypeId) (maps : Maps Tag TypeId) : Prop where
  answers : List.Forall₂ SameAnswer family.answers maps.answers
  holds : Holds family.memory none
  length : family.memory.roots.length = maps.maps.length
  gone : ∀ list, maps.map list = none → family.memory.root list = none
  lists : ∀ list tags, maps.map list = some tags →
    ∃ items, Lists family.memory list items ∧ Represents items tags

omit [DecidableEq TypeId] in
theorem shows_empty : Shows ({} : Family Tag TypeId) {} where
  answers := .nil
  holds := holds_empty
  length := rfl
  gone _ _ := rfl
  lists _ _ isMap := by cases isMap

omit [DecidableEq TypeId] in
theorem Shows.agrees (shows : Shows family maps) : Agrees family maps where
  answers := shows.answers
  length := shows.length
  gone := shows.gone
  lists := shows.lists
  counted address cell found := by
    have counted := shows.holds.counted address
    rw [Memory.count_of_cell found] at counted
    simpa using counted.symm
  reached address := by
    constructor
    · intro allocated
      obtain ⟨cell, found⟩ := Option.isSome_iff_exists.mp allocated
      exact shows.holds.reached (by rw [Memory.body_of_cell found]; rfl)
    · rintro ⟨list, start, passed, isRoot, run, member⟩
      obtain ⟨cell, found⟩ := Memory.cell_of_body (run.allocated member)
      rw [found]
      rfl

omit [DecidableEq TypeId] in
theorem Shows.passed (shows : Shows family maps) (isMap : maps.map list = some tags) :
    ∃ start passed, family.memory.root list = some start ∧
      Run family.memory.body start passed none ∧ Represents (passed.map Prod.snd) tags := by
  obtain ⟨items, ⟨start, passed, isRoot, run, rfl⟩, represents⟩ := shows.lists list tags isMap
  exact ⟨start, passed, isRoot, run, represents⟩

namespace Maps

omit [DecidableEq TypeId] [TagClass Tag TypeId]

theorem map_lt (isMap : maps.map list = some tags) : list < maps.maps.length := by
  by_contra outside
  rw [map, List.getElem?_eq_none (by omega)] at isMap
  cases isMap

theorem map_setMap_self (isMap : maps.map list = some tags)
    (after : Option (TypeId → Option Tag)) : (maps.setMap list after).map list = after := by
  simp only [map, setMap, List.getElem?_set_self (map_lt isMap)]
  rfl

theorem map_setMap_of_ne {other : ℕ} (different : other ≠ list)
    (after : Option (TypeId → Option Tag)) : (maps.setMap list after).map other = maps.map other := by
  simp only [map, setMap, List.getElem?_set_ne different.symm]

end Maps

omit [DecidableEq TypeId] in
theorem Shows.changed (shows : Shows family maps) (isMap : maps.map list = some tags)
    {memory : TagMemory TypeId} {items : List (TagItem TypeId)} {after : TypeId → Option Tag}
    {answers expected : List (Answer Tag)} (holds : Holds memory none)
    (frame : Frame family.memory memory list) (lists : Lists memory list items)
    (represents : Represents items after) (same : List.Forall₂ SameAnswer answers expected) :
    Shows { memory, answers } { maps.setMap list (some after) with answers := expected } where
  answers := same
  holds := holds
  length := by
    have length := shows.length
    change _ = (maps.maps.set list _).length
    rw [List.length_set, ← length, frame.length]
  gone other none := by
    change (maps.setMap list (some after)).map other = _ at none
    have different : other ≠ list := by
      rintro rfl
      rw [Maps.map_setMap_self isMap] at none
      cases none
    rw [Maps.map_setMap_of_ne different] at none
    have gone := shows.gone other none
    rwa [Memory.root, ← frame.roots other different] at gone
  lists other others isOther := by
    change (maps.setMap list (some after)).map other = _ at isOther
    by_cases here : other = list
    · subst here
      rw [Maps.map_setMap_self isMap, Option.some_inj] at isOther
      subst isOther
      exact ⟨items, lists, represents⟩
    · rw [Maps.map_setMap_of_ne here] at isOther
      obtain ⟨start, passed, isRoot, run, represents⟩ := shows.passed isOther
      refine ⟨_, ⟨start, passed, ?_, frame.runs other start passed here isRoot run, rfl⟩, represents⟩
      rw [Memory.root, frame.roots other here]
      exact isRoot

omit [DecidableEq TypeId] in
theorem Shows.grown (shows : Shows family maps) {pointer : Option ℕ}
    {passed : List (ℕ × TagItem TypeId)} (run : Run family.memory.body pointer passed none)
    (represents : Represents (passed.map Prod.snd) tags)
    (holds : Holds ((family.memory.newRoot pointer).increment pointer) none) :
    Shows { family with memory := (family.memory.newRoot pointer).increment pointer }
      { maps with maps := maps.maps ++ [some tags] } where
  answers := shows.answers
  holds := holds
  length := by
    rw [Memory.roots_increment]
    change (family.memory.roots ++ [some pointer]).length = (maps.maps ++ [some tags]).length
    rw [List.length_append, List.length_append, shows.length]
    rfl
  gone other none := by
    have length := shows.length
    rw [Memory.root, Memory.roots_increment]
    change (maps.maps ++ [some tags])[other]?.join = _ at none
    change (family.memory.roots ++ [some pointer])[other]?.join = _
    by_cases old : other < maps.maps.length
    · rw [List.getElem?_append_left old] at none
      rw [List.getElem?_append_left (by omega)]
      exact shows.gone other none
    · by_cases new : other = maps.maps.length
      · rw [new, List.getElem?_concat_length] at none
        cases none
      · rw [List.getElem?_eq_none]
        · rfl
        · rw [List.length_append, List.length_singleton]
          omega
  lists other others isOther := by
    have length := shows.length
    change (maps.maps ++ [some tags])[other]?.join = _ at isOther
    by_cases old : other < maps.maps.length
    · rw [List.getElem?_append_left old] at isOther
      obtain ⟨start, passed, isRoot, way, represents⟩ := shows.passed isOther
      refine ⟨_, ⟨start, passed, ?_, ?_, rfl⟩, represents⟩
      · rw [Memory.root, Memory.roots_increment]
        exact Memory.root_newRoot_of_some isRoot pointer
      · rw [Memory.body_increment]
        exact way
    · have new : other = maps.maps.length := by
        by_contra beyond
        rw [List.getElem?_eq_none] at isOther
        · cases isOther
        · rw [List.length_append, List.length_singleton]
          omega
      rw [new, List.getElem?_concat_length] at isOther
      obtain rfl : tags = others := Option.some.inj isOther
      refine ⟨_, ⟨pointer, passed, ?_, ?_, rfl⟩, represents⟩
      · rw [Memory.root, Memory.roots_increment, new, ← length]
        exact Memory.root_newRoot_self pointer
      · rw [Memory.body_increment]
        exact run

section Operations

omit [DecidableEq TypeId] in
theorem removeAll_shows (shows : Shows family maps) (isMap : maps.map list = some tags) :
    ∃ memory, PacketTagList.removeAll family.memory list = some memory ∧
      memory.root list = some none ∧ Frame family.memory memory list ∧
        Shows { family with memory } (maps.setMap list (some fun _ => none)) := by
  obtain ⟨start, passed, isRoot, run, represents⟩ := shows.passed isMap
  obtain ⟨memory, removed, holds, frame, empty⟩ := removeAll_spec shows.holds isRoot
  refine ⟨memory, removed, empty, frame, ?_⟩
  exact shows.changed isMap holds frame ⟨none, [], empty, .nil none, rfl⟩ represents_nil shows.answers

omit [DecidableEq TypeId] in
theorem copy_shows (shows : Shows family maps) (isMap : maps.map list = some tags) :
    ∃ memory, PacketTagList.copy family.memory list = some memory ∧
      Shows { family with memory } { maps with maps := maps.maps ++ [some tags] } := by
  obtain ⟨start, passed, isRoot, run, represents⟩ := shows.passed isMap
  have points : family.memory.get (.root list) = some start := isRoot
  refine ⟨(family.memory.newRoot start).increment start, ?_, ?_⟩
  · simp only [PacketTagList.copy, isRoot, Option.bind_eq_bind, Option.bind_some]
    apply countNext_eq
    rintro place rfl
    exact shows.holds.allocated points
  · exact shows.grown run represents (newRoot_holds shows.holds points)

omit [DecidableEq TypeId] in
theorem destroy_shows (shows : Shows family maps) (isMap : maps.map list = some tags) :
    ∃ memory, PacketTagList.destroy family.memory list = some memory ∧
      Shows { family with memory } (maps.setMap list none) := by
  obtain ⟨memory, removed, empty, frame, -⟩ := removeAll_shows shows isMap
  obtain ⟨start, passed, isRoot, run, represents⟩ := shows.passed isMap
  obtain ⟨memory', again, holds, -, -⟩ := removeAll_spec shows.holds isRoot
  obtain rfl : memory = memory' := Option.some.inj (removed.symm.trans again)
  refine ⟨memory.setRoot list none, ?_, shows.answers, dropRoot_holds holds empty, ?_, ?_, ?_⟩
  · simp only [PacketTagList.destroy, removed, Option.bind_eq_bind, Option.bind_some]
    rfl
  · change (memory.roots.set list _).length = (maps.maps.set list _).length
    rw [List.length_set, List.length_set, frame.length, shows.length]
  · intro other none
    by_cases here : other = list
    · rw [here, Memory.root_setRoot_self empty]
    · rw [Maps.map_setMap_of_ne here] at none
      have gone := shows.gone other none
      change (memory.setRoot list _).root other = _
      rw [Memory.root_setRoot_of_ne here]
      rwa [Memory.root, ← frame.roots other here] at gone
  · intro other others isOther
    have different : other ≠ list := by
      rintro rfl
      rw [Maps.map_setMap_self isMap] at isOther
      cases isOther
    rw [Maps.map_setMap_of_ne different] at isOther
    obtain ⟨first, way, isStart, goes, others⟩ := shows.passed isOther
    refine ⟨_, ⟨first, way, ?_, frame.runs other first way different isStart goes, rfl⟩, others⟩
    change (memory.setRoot list _).root other = _
    rw [Memory.root_setRoot_of_ne different, Memory.root, frame.roots other different]
    exact isStart

omit [DecidableEq TypeId] in
theorem assign_shows {o : ℕ} {others : TypeId → Option Tag} (shows : Shows family maps)
    (isMap : maps.map list = some tags) (isOther : maps.map o = some others) :
    ∃ memory, PacketTagList.assign family.memory list o = some memory ∧
      Shows { family with memory } (maps.setMap list (some others)) := by
  obtain ⟨start, passed, isRoot, run, represents⟩ := shows.passed isMap
  obtain ⟨first, way, isStart, goes, represented⟩ := shows.passed isOther
  simp only [PacketTagList.assign, isRoot, isStart, Option.bind_eq_bind, Option.bind_some]
  by_cases same : start = first
  · rw [if_pos same]
    subst same
    exact ⟨family.memory, rfl, shows.changed isMap shows.holds (.refl _ list)
      ⟨start, way, isRoot, goes, rfl⟩ represented shows.answers⟩
  · rw [if_neg same]
    have different : o ≠ list := by
      rintro rfl
      exact same (Option.some.inj (isRoot.symm.trans isStart))
    obtain ⟨memory, removed, holds, frame, empty⟩ := removeAll_spec shows.holds isRoot
    have stays : memory.root o = some first := by
      rw [Memory.root, frame.roots o different]
      exact isStart
    have points : memory.get (.root o) = some first := stays
    simp only [removed, stays, Option.bind_some]
    refine ⟨(memory.store (.root list) first).increment first, ?_, ?_⟩
    · apply countNext_eq
      rintro place rfl
      exact holds.allocated points
    · refine shows.changed isMap (share_holds holds points empty) (frame.trans share_frame)
        ⟨first, way, ?_, ?_, rfl⟩ represented shows.answers
      · rw [Memory.root, Memory.roots_increment]
        exact Memory.root_setRoot_self empty _
      · rw [Memory.body_increment]
        exact frame.runs o first way different isStart goes

variable [LawfulTags Tag] {tag : Tag}

theorem remove_shows (shows : Shows family maps) (isMap : maps.map list = some tags) (tag : Tag) :
    ∃ memory found, PacketTagList.remove family.memory list tag = some (memory, found) ∧
      Shows { memory, answers := family.answers ++ [.removed found] }
        { maps.setMap list (some (Function.update tags (TagClass.getInstanceTypeId tag) none)) with
          answers := maps.answers ++ [.removed (tags (TagClass.getInstanceTypeId tag))] } := by
  obtain ⟨start, passed, isRoot, run, represents⟩ := shows.passed isMap
  unfold PacketTagList.remove
  rcases cowTraverse_cases (TagClass.getInstanceTypeId tag) shows.holds isRoot
    run represents.small (removeWriter tag) with ⟨without, traversed⟩ |
      ⟨after, preMerge, before, rest, slot, cur, cell, reached, traversed⟩
  · have absent := represents.absent_iff_tidless.mpr without
    refine ⟨family.memory, none, traversed, ?_⟩
    rw [absent, Function.update_eq_self_iff.mpr absent.symm]
    exact shows.changed isMap shows.holds (.refl _ list) ⟨start, passed, isRoot, run, rfl⟩
      represents (List.rel_append shows.answers (.cons (.removed .none) .nil))
  · have isTid := reached.isTid
    rw [reached.items] at represents
    obtain ⟨stored, present, encodes⟩ := represents.at
    have same : TagClass.getInstanceTypeId tag = TagClass.getInstanceTypeId stored :=
      isTid.symm.trans encodes.tid
    obtain ⟨memory, got, written, sameTag, holds, frame, lists⟩ :=
      removeWriter_spec reached encodes same
    refine ⟨memory, some got, ?_, ?_⟩
    · rw [traversed, written]
      rfl
    · rw [← isTid, present]
      exact shows.changed isMap holds frame lists represents.erase
        (List.rel_append shows.answers (.cons (.removed (.some sameTag)) .nil))

theorem add_shows (shows : Shows family maps) (isMap : maps.map list = some tags)
    (absent : tags (TagClass.getInstanceTypeId tag) = none) {answers expected : List (Answer Tag)}
    (same : List.Forall₂ SameAnswer answers expected) :
    ∃ memory, PacketTagList.add family.memory list tag = some memory ∧
      Shows { memory, answers }
        { maps.setMap list
            (some (Function.update tags (TagClass.getInstanceTypeId tag) (some tag))) with
          answers := expected } := by
  obtain ⟨start, passed, isRoot, run, represents⟩ := shows.passed isMap
  let item : TagItem TypeId :=
    { tid := TagClass.getInstanceTypeId tag, data := TagClass.serialize tag }
  have small : item.data.length < 2 ^ 32 - 1 := LawfulTags.small tag
  refine ⟨family.memory.push list start item, ?_, ?_⟩
  · have enough : passed.length < fuel family.memory := Nat.lt_succ_of_le run.length_le
    rcases find_cases (TagClass.getInstanceTypeId tag) run enough with
      ⟨found, -⟩ | ⟨mid, rest, cur, cell, -, here, isTid⟩
    · simp only [PacketTagList.add, isRoot, found, Option.bind_eq_bind, Option.bind_some]
      rw [createTagData_eq family.memory start small]
      rfl
    · have without := represents.absent_iff_tidless.mp absent
      rw [here.split] at without
      exact absurd isTid (without _ (List.mem_append_right _ List.mem_cons_self))
  · have lists : Lists (family.memory.push list start item) list
        (item :: passed.map Prod.snd) := by
      refine ⟨_, (family.memory.cells.length, item) :: passed, push_root isRoot item, ?_, rfl⟩
      refine .cons ?_ (push_after item run)
      rw [body_push, if_pos rfl]
    have encodes : Encodes item tag := ⟨rfl, List.prefix_refl _, small⟩
    exact shows.changed isMap (push_holds shows.holds isRoot item) (push_frame item) lists
      (represents.push absent encodes) same

theorem replace_shows (shows : Shows family maps) (isMap : maps.map list = some tags)
    (fits : family.Fits (.replace list tag)) :
    ∃ memory found, PacketTagList.replace family.memory list tag = some (memory, found) ∧
      Shows { memory, answers := family.answers ++ [.replaced found] }
        { maps.setMap list
            (some (Function.update tags (TagClass.getInstanceTypeId tag) (some tag))) with
          answers := maps.answers ++
            [.replaced (tags (TagClass.getInstanceTypeId tag)).isSome] } := by
  obtain ⟨start, passed, isRoot, run, represents⟩ := shows.passed isMap
  have answered : ∀ found, List.Forall₂ SameAnswer (family.answers ++ [.replaced found])
      (maps.answers ++ [.replaced found]) :=
    fun found => List.rel_append shows.answers (.cons (.replaced found) .nil)
  unfold PacketTagList.replace
  rcases cowTraverse_cases (TagClass.getInstanceTypeId tag) shows.holds isRoot
    run represents.small (replaceWriter tag) with ⟨without, traversed⟩ |
      ⟨after, preMerge, before, rest, slot, cur, cell, reached, traversed⟩
  · have absent := represents.absent_iff_tidless.mpr without
    obtain ⟨memory, added, later⟩ := add_shows shows isMap absent (answered false)
    refine ⟨memory, false, ?_, ?_⟩
    · simp only [traversed, Option.bind_eq_bind, Option.bind_some]
      rw [added]
      rfl
    · rw [absent]
      exact later
  · have isTid := reached.isTid
    have merge := reached.merge
    have isCell := reached.isCell
    rw [reached.items] at represents
    obtain ⟨stored, present, encodes⟩ := represents.at
    have room : preMerge = true → (TagClass.serialize tag).length ≤ cell.item.data.length := by
      rintro rfl
      obtain ⟨-, rfl, searched⟩ := merge
      exact fits start isRoot _ searched cell isCell
    obtain ⟨memory, item, written, same, encoded, holds, frame, lists⟩ :=
      replaceWriter_spec reached encodes isTid.symm room
    refine ⟨memory, true, ?_, ?_⟩
    · rw [traversed, written]
      rfl
    · rw [← isTid, present]
      exact shows.changed isMap holds frame lists (represents.write same encoded) (answered true)

theorem peek_shows (shows : Shows family maps) (isMap : maps.map list = some tags) (tag : Tag) :
    ∃ found, PacketTagList.peek family.memory list tag = some found ∧
      Option.Rel SameTag found (tags (TagClass.getInstanceTypeId tag)) := by
  obtain ⟨start, passed, isRoot, run, represents⟩ := shows.passed isMap
  have enough : passed.length < fuel family.memory := Nat.lt_succ_of_le run.length_le
  rcases find_cases (TagClass.getInstanceTypeId tag) run enough with
    ⟨found, without⟩ | ⟨mid, rest, cur, cell, found, here, isTid⟩
  · refine ⟨none, ?_, ?_⟩
    · simp only [PacketTagList.peek, isRoot, found, Option.bind_eq_bind, Option.bind_some]
      rfl
    · rw [represents.absent_iff_tidless.mpr without]
      exact .none
  · rw [here.split, List.map_append, List.map_cons] at represents
    obtain ⟨stored, present, encodes⟩ := represents.at
    have same : TagClass.getInstanceTypeId tag = TagClass.getInstanceTypeId stored :=
      isTid.symm.trans encodes.tid
    obtain ⟨got, read, sameTag⟩ := encodes.deserialize same
    refine ⟨some got, ?_, ?_⟩
    · simp only [PacketTagList.peek, isRoot, found, read, Option.bind_eq_bind, Option.bind_some]
      rfl
    · rw [← isTid, present]
      exact .some sameTag

/-- What a family of maps does, a family of lists does too, if the tag that it rewrites in place
fits. -/
theorem Shows.step {action : Action Tag} (shows : Shows family maps) (fits : family.Fits action)
    (stepped : maps.step action = some reached) :
    ∃ next, family.step action = some next ∧ Shows next reached := by
  cases action with
  | create =>
      obtain rfl := Option.some.inj stepped
      have holds : Holds ((family.memory.newRoot none).increment none) none := by
        apply holds_shared shows.holds
        · rfl
        · exact fun _ => rfl
        · exact Memory.pointers_newRoot none
        · exact fun _ contrary => by cases contrary
      exact ⟨_, rfl, shows.grown (.nil none) represents_nil holds⟩
  | copy o =>
      obtain ⟨tags, isMap, result⟩ := Option.bind_eq_some_iff.mp stepped
      obtain rfl := Option.some.inj result
      obtain ⟨memory, copied, later⟩ := copy_shows shows isMap
      exact ⟨_, by simp only [Family.step, copied]; rfl, later⟩
  | assign list o =>
      obtain ⟨tags, isMap, result⟩ := Option.bind_eq_some_iff.mp stepped
      obtain ⟨others, isOther, result⟩ := Option.bind_eq_some_iff.mp result
      obtain rfl := Option.some.inj result
      obtain ⟨memory, assigned, later⟩ := assign_shows shows isMap isOther
      exact ⟨_, by simp only [Family.step, assigned]; rfl, later⟩
  | destroy list =>
      obtain ⟨tags, isMap, result⟩ := Option.bind_eq_some_iff.mp stepped
      obtain rfl := Option.some.inj result
      obtain ⟨memory, destroyed, later⟩ := destroy_shows shows isMap
      exact ⟨_, by simp only [Family.step, destroyed]; rfl, later⟩
  | removeAll list =>
      obtain ⟨tags, isMap, result⟩ := Option.bind_eq_some_iff.mp stepped
      obtain rfl := Option.some.inj result
      obtain ⟨memory, removed, -, -, later⟩ := removeAll_shows shows isMap
      exact ⟨_, by simp only [Family.step, removed]; rfl, later⟩
  | add list tag =>
      obtain ⟨tags, isMap, result⟩ := Option.bind_eq_some_iff.mp stepped
      by_cases present : (tags (TagClass.getInstanceTypeId tag)).isSome
      · rw [if_pos present] at result
        cases result
      · rw [if_neg present] at result
        obtain rfl := Option.some.inj result
        have absent := Option.not_isSome_iff_eq_none.mp present
        obtain ⟨memory, added, later⟩ := add_shows shows isMap absent shows.answers
        exact ⟨_, by simp only [Family.step, added]; rfl, later⟩
  | remove list tag =>
      obtain ⟨tags, isMap, result⟩ := Option.bind_eq_some_iff.mp stepped
      obtain rfl := Option.some.inj result
      obtain ⟨memory, found, removed, later⟩ := remove_shows shows isMap tag
      exact ⟨_, by simp only [Family.step, removed]; rfl, later⟩
  | replace list tag =>
      obtain ⟨tags, isMap, result⟩ := Option.bind_eq_some_iff.mp stepped
      obtain rfl := Option.some.inj result
      obtain ⟨memory, found, replaced, later⟩ := replace_shows shows isMap fits
      exact ⟨_, by simp only [Family.step, replaced]; rfl, later⟩
  | peek list tag =>
      obtain ⟨tags, isMap, result⟩ := Option.bind_eq_some_iff.mp stepped
      obtain rfl := Option.some.inj result
      obtain ⟨found, peeked, same⟩ := peek_shows shows isMap tag
      refine ⟨_, by simp only [Family.step, peeked]; rfl, ?_⟩
      exact ⟨List.rel_append shows.answers (.cons (.peeked same) .nil), shows.holds, shows.length,
        shows.gone, shows.lists⟩

end Operations

theorem fits_of_step {next : Family Tag TypeId} {action : Action Tag}
    (stepped : family.step action = some next) : family.Fits action := by
  cases action with
  | replace list tag =>
      intro start isRoot stop searched
      cases stop with
      | ended => trivial
      | merge prevNext cur => trivial
      | found prevNext cur =>
          intro cell isCell
          obtain ⟨⟨memory, found⟩, replaced, -⟩ := Option.bind_eq_some_iff.mp stepped
          obtain ⟨⟨traversed, tid⟩, writes, -⟩ := Option.bind_eq_some_iff.mp replaced
          have isRoot : family.memory.root list = some start := isRoot
          have searched : search family.memory (TagClass.getInstanceTypeId tag)
            (fuel family.memory) (.root list) start = some (.found prevNext cur) := searched
          have isCell : family.memory.cell cur = some cell := isCell
          cases start with
          | none => cases searched
          | some first =>
              simp only [cowTraverse, isRoot, searched, Option.bind_eq_bind, Option.bind_some,
                replaceWriter, isCell, if_true] at writes
              obtain ⟨_, written, _⟩ := Option.bind_eq_some_iff.mp writes
              obtain ⟨data, copied, _⟩ := Option.bind_eq_some_iff.mp written
              unfold writeOver at copied
              split at copied
              · assumption
              · cases copied
  | create => trivial
  | copy o => trivial
  | assign list o => trivial
  | destroy list => trivial
  | removeAll list => trivial
  | add list tag => trivial
  | remove list tag => trivial
  | peek list tag => trivial

/-- A family of lists does what the family of maps does, to the end of every run of the maps,
exactly if every tag that is rewritten in place fits. -/
theorem lists_are_maps_iff [LawfulTags Tag] (actions : List (Action Tag))
    (last : Maps Tag TypeId) (ran : run Maps.step {} actions = some last) :
    (∃ family : Family Tag TypeId, run Family.step {} actions = some family ∧ Agrees family last) ↔
      Guarded Family.step Family.Fits ({} : Family Tag TypeId) actions := by
  constructor
  · rintro ⟨family, reached, -⟩
    exact guarded_of_isSome (fun _ _ _ stepped => fits_of_step stepped) (by rw [reached]; rfl)
  · intro fits
    have follows : ∀ (family : Family Tag TypeId) (action : Action Tag)
        (maps reached : Maps Tag TypeId), Shows family maps → family.Fits action →
          maps.step action = some reached →
            ∃ next, family.step action = some next ∧ Shows next reached :=
      fun _ _ _ _ shows fits stepped => shows.step fits stepped
    obtain ⟨family, reached, shows⟩ := run_refines follows shows_empty fits ran
    exact ⟨family, reached, shows.agrees⟩

def sharedTags : List (Action CybertwinTag) :=
  [.create, .add 0 (.cybertwin 5), .add 0 (.cert { cuid := 5, isUserRequired := true, usr := 8 }),
    .copy 0, .add 1 (.credit { cuid := 5, credit := 3 }), .replace 1 (.cybertwin 6),
    .peek 0 (.cybertwin 0), .replace 0 (.cert { cuid := 7 }), .remove 1 (.cert {}), .assign 0 1,
    .peek 0 (.credit {}), .destroy 1, .removeAll 0]

theorem lists_are_maps_iff_shared : ∃ last : Maps CybertwinTag CybertwinTypeId,
    run Maps.step {} sharedTags = some last ∧
      ((∃ family : Family CybertwinTag CybertwinTypeId,
          run Family.step {} sharedTags = some family ∧ Agrees family last) ↔
        Guarded Family.step Family.Fits ({} : Family CybertwinTag CybertwinTypeId) sharedTags) :=
  ⟨_, rfl, lists_are_maps_iff sharedTags _ rfl⟩

/-- A certificate that comes to require a user no longer fits where it was. -/
theorem certTag_notReplaced : ¬ ∀ (actions : List (Action CybertwinTag))
    (last : Maps CybertwinTag CybertwinTypeId), run Maps.step {} actions = some last →
      ∃ family : Family CybertwinTag CybertwinTypeId,
        run Family.step {} actions = some family ∧ Agrees family last := by
  intro follows
  obtain ⟨family, reached, -⟩ := follows [.create, .add 0 (.cert { cuid := 5 }),
    .replace 0 (.cert { cuid := 5, isUserRequired := true, usr := 8 })] _ rfl
  have stopped : (run Family.step ({} : Family CybertwinTag CybertwinTypeId)
      [.create, .add 0 (.cert { cuid := 5 }),
        .replace 0 (.cert { cuid := 5, isUserRequired := true, usr := 8 })]).isSome = false := by
    decide +kernel
  rw [reached] at stopped
  cases stopped

end FISim.PacketTags
