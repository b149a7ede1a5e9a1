import FISim.ByteTags.Editing

/-!
Lists of byte tags when bytes are added at one of the ends: the tags are cut
there, unless none of them reaches that far.
-/

namespace FISim.ByteTags

open Cells SharedLogs

namespace ByteTagList

variable {mem mem' : Memory} {list o : ByteTagList} {spans more : List Span} {others live : List Log}
  {limit : ℤ}

theorem holds_deallocate (list : ByteTagList) (holds : mem.Holds (list.logs ++ others)) :
    (mem.deallocate list.data).Holds others ∧ ∀ live, mem.Kept (mem.deallocate list.data) live := by
  unfold logs at holds
  cases isData : list.data with
  | none =>
      rw [isData] at holds
      exact ⟨holds, fun live => .refl mem live⟩
  | some data =>
      rw [isData] at holds
      exact holds.deallocate

theorem holds_share (holds : mem.Holds live) (member : o.logs ⊆ live) :
    (mem.share o.data).Holds (o.logs ++ live) ∧ mem.Kept (mem.share o.data) (o.logs ++ live) := by
  unfold logs at member ⊢
  cases isData : o.data with
  | none => exact ⟨holds, .refl mem _⟩
  | some data =>
      rw [isData] at member
      have shared : (⟨data, o.used⟩ : Log) ∈ live := member (by simp)
      exact holds.share shared

theorem holds_assign (holds : mem.Holds (list.logs ++ others)) (member : o.logs ⊆ others) :
    (list.assign mem o).1.Holds (o.logs ++ others) ∧
      mem.Kept (list.assign mem o).1 (o.logs ++ others) := by
  obtain ⟨released, kept⟩ := holds_deallocate list holds
  obtain ⟨shared, same⟩ := holds_share released member
  exact ⟨shared, (kept _).trans same⟩

theorem holds_replaceBy (holds : mem.Holds (o.logs ++ (list.logs ++ others))) :
    ∃ last, list.replaceBy mem o = (last, o) ∧ last.Holds (o.logs ++ others) ∧
      mem.Kept last (o.logs ++ others) := by
  have swapped : mem.Holds (list.logs ++ (o.logs ++ others)) :=
    holds.perm (by
      rw [← List.append_assoc, ← List.append_assoc]
      exact List.perm_append_comm.append_right others)
  obtain ⟨assigned, kept⟩ := holds_assign (o := o) swapped (List.subset_append_left _ _)
  obtain ⟨destroyed, same⟩ := holds_deallocate _ assigned
  exact ⟨_, rfl, destroyed, (kept.subset (List.subset_append_right _ _)).trans (same _)⟩

theorem Shows.adjust (shows : list.Shows mem spans) (offset : ℤ)
    (lower : -2 ^ 31 ≤ list.adjustment + offset) (upper : list.adjustment + offset < 2 ^ 31) :
    (list.adjust offset).Shows mem (spans.map (Span.shift offset)) := by
  have adjusted := int32_eq lower upper
  have starts : ∀ span : Span, span.start + offset - (list.adjustment + offset) =
      span.start - list.adjustment := fun span => by omega
  have stops : ∀ span : Span, span.stop + offset - (list.adjustment + offset) =
      span.stop - list.adjustment := fun span => by omega
  refine ⟨?_, shows.empty, ?_, ?_⟩
  · simp only [ByteTagList.adjust, adjusted, List.flatMap_map, Span.encode_shift]
    exact shows.bytes
  · intro span member
    obtain ⟨before, old, rfl⟩ := List.mem_map.mp member
    simp only [ByteTagList.adjust, adjusted, Span.shift, starts]
    exact shows.minStart before old
  · intro span member
    obtain ⟨before, old, rfl⟩ := List.mem_map.mp member
    simp only [ByteTagList.adjust, adjusted, Span.shift, stops]
    exact shows.maxEnd before old

theorem Within.adjust (within : Within limit list spans) (offset : ℤ) (size : ℕ)
    (bound : -size ≤ offset ∧ offset ≤ size) (small : limit + size < 2 ^ 31) :
    Within (limit + size) (list.adjust offset) (spans.map (Span.shift offset)) := by
  obtain ⟨lower, upper⟩ := within.adjustment
  have adjusted : int32 (list.adjustment + offset) = _ := int32_eq (by omega) (by omega)
  refine ⟨?_, ?_, ?_⟩
  · simp only [ByteTagList.adjust, adjusted]
    omega
  · intro span member
    obtain ⟨before, old, rfl⟩ := List.mem_map.mp member
    have starts := within.starts before old
    simp only [Span.shift]
    omega
  · intro span member
    obtain ⟨before, old, rfl⟩ := List.mem_map.mp member
    have stops := within.stops before old
    simp only [Span.shift]
    omega

/-- What an edit of the tags of a list keeps in order. -/
structure Edited (mem last : Memory) (list' : ByteTagList) (spans spans' : List Span)
    (others : List Log) (limit : ℤ) : Prop where
  holds : last.Holds (list'.logs ++ others)
  shows : list'.Shows last spans'
  kept : mem.Kept last others
  stored_le : stored spans' ≤ stored spans
  within : Within limit list' spans'

theorem edited_self (holds : mem.Holds (list.logs ++ others)) (shows : list.Shows mem spans)
    (within : Within limit list spans) : Edited mem mem list spans spans others limit :=
  ⟨holds, shows, .refl _ _, Nat.le_refl _, within⟩

theorem rebuilt (change : ℤ → ℤ → Option (ℤ × ℤ)) (holds : mem.Holds (list.logs ++ others))
    (shows : list.Shows mem spans) (within : Within limit list spans)
    (small : limit < 2 ^ 31) (room : stored spans < 2 ^ 32) (positive : 0 ≤ limit)
    (bounds : ∀ span ∈ spans, ∀ other, adopted change span = some other →
      (-limit ≤ other.start ∧ other.start ≤ limit) ∧ -limit ≤ other.stop ∧ other.stop ≤ limit) :
    ∃ made other last, addItems change mem {} list = some (made, other) ∧
      list.replaceBy made other = (last, other) ∧
      Edited mem last other spans (spans.filterMap (adopted change)) others limit := by
  have limits : ∀ span ∈ spans.filterMap (adopted change),
      (-limit ≤ span.start ∧ span.start ≤ limit) ∧ -limit ≤ span.stop ∧ span.stop ≤ limit := by
    intro span member
    obtain ⟨before, old, found⟩ := List.mem_filterMap.mp member
    exact bounds before old span found
  have fresh : mem.Holds (({} : ByteTagList).logs ++ (list.logs ++ others)) := holds
  obtain ⟨made, other, added, held, shown, kept, same⟩ := addItems_spec change fresh
    (shows_empty mem) shows
    (List.subset_append_left _ _) (within.inRange small)
    (by
      have none : stored [] = 0 := rfl
      omega)
    (by
      intro span member
      obtain ⟨start, stop⟩ := limits span member
      simp only [Span.InRange, Span.shift]
      omega)
  obtain ⟨last, replaced, holdsLast, keptLast⟩ := holds_replaceBy held
  refine ⟨made, other, last, added, replaced, holdsLast,
    shown.kept (keptLast.subset (List.subset_append_left _ _)),
    (kept.subset (List.subset_append_right _ _)).trans
      (keptLast.subset (List.subset_append_right _ _)),
    stored_filterMap fun span _ changed found => adopted_toTag found, ?_⟩
  refine ⟨?_, fun span member => (limits span member).1, fun span member => (limits span member).2⟩
  rw [same]
  simp only
  omega

theorem between_iff {span : Span} (start : span.start < 2 ^ 30) :
    span.Between 0 int32Max ↔ 0 < span.stop := by
  unfold Span.Between int32Max
  omega

theorem changed_eq (change : ℤ → ℤ → Option (ℤ × ℤ)) {span : Span} (stop : span.stop < 2 ^ 30) :
    changed change span = (change (max span.start 0) span.stop).map fun (start, stop) =>
      { span with start, stop } := by
  have high : min span.stop int32Max = span.stop := min_eq_left (by unfold int32Max; omega)
  unfold changed
  rw [high]

theorem adopted_cutAtEnd {span : Span} {appendOffset : ℤ} (start : span.start < 2 ^ 30)
    (stop : span.stop < 2 ^ 30) : adopted (cutAtEnd appendOffset) span =
      if 0 < span.stop ∧ max span.start 0 < appendOffset then
        some { span with start := max span.start 0, stop := min span.stop appendOffset }
      else none := by
  unfold adopted
  rw [changed_eq _ stop]
  unfold cutAtEnd
  by_cases inside : 0 < span.stop
  · rw [if_pos ((between_iff start).mpr inside)]
    by_cases before : max span.start 0 < appendOffset
    · have cut : (if appendOffset < span.stop then appendOffset else span.stop) =
          min span.stop appendOffset := by
        split <;> omega
      rw [if_neg (show ¬ appendOffset ≤ max span.start 0 by omega),
        if_pos (show 0 < span.stop ∧ max span.start 0 < appendOffset from ⟨inside, before⟩), cut]
      rfl
    · rw [if_pos (show appendOffset ≤ max span.start 0 by omega),
        if_neg (show ¬ (0 < span.stop ∧ max span.start 0 < appendOffset) from
          fun both => before both.2)]
      rfl
  · rw [if_neg (fun between => inside ((between_iff start).mp between)),
      if_neg (fun both => inside both.1)]

theorem adopted_cutAtStart {span : Span} {prependOffset : ℤ} (start : span.start < 2 ^ 30)
    (stop : span.stop < 2 ^ 30) (positive : 0 ≤ prependOffset) :
    adopted (cutAtStart prependOffset) span =
      if prependOffset < span.stop then some { span with start := max span.start prependOffset }
      else none := by
  unfold adopted
  rw [changed_eq _ stop]
  unfold cutAtStart
  by_cases inside : prependOffset < span.stop
  · have cut : (if max span.start 0 < prependOffset then prependOffset else max span.start 0) =
        max span.start prependOffset := by
      split <;> omega
    rw [if_pos ((between_iff start).mpr (by omega)), if_pos inside, if_neg (by omega), cut]
    rfl
  · rw [if_neg inside, if_pos (show span.stop ≤ prependOffset by omega), Option.map_none, ite_self]

theorem addAtEnd_spec (appendOffset : ℤ) (holds : mem.Holds (list.logs ++ others))
    (shows : list.Shows mem spans) (within : Within limit list spans) (small : limit < 2 ^ 30)
    (room : stored spans < 2 ^ 32) (positive : 0 ≤ appendOffset) (most : appendOffset ≤ limit) :
    ∃ last list' spans', list.addAtEnd mem appendOffset = some (last, list') ∧
      Edited mem last list' spans spans' others limit ∧
      ∀ offset, 0 ≤ offset →
        marks spans' offset = if offset < appendOffset then marks spans offset else [] := by
  obtain ⟨lower, upper⟩ := within.adjustment
  have offset32 : int32 (appendOffset - list.adjustment) = _ := int32_eq (by omega) (by omega)
  unfold addAtEnd
  rw [offset32]
  by_cases early : list.maxEnd ≤ appendOffset - list.adjustment
  · rw [if_pos early]
    refine ⟨mem, list, spans, rfl, edited_self holds shows within, ?_⟩
    intro offset _
    have same : marks (spans.filterMap some) offset =
        if offset < appendOffset then marks spans offset else [] :=
      marks_filterMap (fun _ _ _ same => by rw [Option.some.inj same]) (by
        intro span member
        have stop := shows.maxEnd span member
        simp only [Option.some.injEq, exists_eq_left', Span.Covers]
        omega)
    rwa [List.filterMap_some] at same
  · rw [if_neg early]
    have cut : ∀ span ∈ spans, adopted (cutAtEnd appendOffset) span =
        if 0 < span.stop ∧ max span.start 0 < appendOffset then
          some { span with start := max span.start 0, stop := min span.stop appendOffset }
        else none := by
      intro span member
      have start := within.starts span member
      have stop := within.stops span member
      exact adopted_cutAtEnd (by omega) (by omega)
    obtain ⟨made, other, last, added, replaced, edited⟩ := rebuilt
      (cutAtEnd appendOffset) holds shows within (by omega) room (by omega) (by
        intro span member other found
        have start := within.starts span member
        rw [cut span member] at found
        split at found
        · obtain rfl := Option.some.inj found
          simp only
          omega
        · cases found)
    refine ⟨last, other, _, ?_, edited, ?_⟩
    · simp only [added, replaced, Option.bind_eq_bind, Option.bind_some]
      rfl
    · intro offset after
      apply marks_filterMap (fun _ _ _ found => adopted_toTag found)
      intro span member
      rw [cut span member]
      split
      · simp only [Option.some.injEq, exists_eq_left', Span.Covers]
        omega
      · simp only [reduceCtorEq, false_and, exists_false, false_iff, Span.Covers]
        omega

theorem addAtStart_spec (prependOffset : ℤ) (holds : mem.Holds (list.logs ++ others))
    (shows : list.Shows mem spans) (within : Within limit list spans) (small : limit < 2 ^ 30)
    (room : stored spans < 2 ^ 32) (positive : 0 ≤ prependOffset) (most : prependOffset ≤ limit) :
    ∃ last list' spans', list.addAtStart mem prependOffset = some (last, list') ∧
      Edited mem last list' spans spans' others limit ∧
      (∀ span ∈ spans', prependOffset ≤ span.start) ∧
      ∀ offset, 0 ≤ offset →
        marks spans' offset = if prependOffset ≤ offset then marks spans offset else [] := by
  obtain ⟨lower, upper⟩ := within.adjustment
  have offset32 : int32 (prependOffset - list.adjustment) = _ := int32_eq (by omega) (by omega)
  unfold addAtStart
  rw [offset32]
  by_cases early : prependOffset - list.adjustment ≤ list.minStart
  · rw [if_pos early]
    refine ⟨mem, list, spans, rfl, edited_self holds shows within, ?_, ?_⟩
    · intro span member
      have start := shows.minStart span member
      omega
    intro offset _
    have same : marks (spans.filterMap some) offset =
        if prependOffset ≤ offset then marks spans offset else [] :=
      marks_filterMap (fun _ _ _ same => by rw [Option.some.inj same]) (by
        intro span member
        have start := shows.minStart span member
        simp only [Option.some.injEq, exists_eq_left', Span.Covers]
        omega)
    rwa [List.filterMap_some] at same
  · rw [if_neg early]
    have cut : ∀ span ∈ spans, adopted (cutAtStart prependOffset) span =
        if prependOffset < span.stop then some { span with start := max span.start prependOffset }
        else none := by
      intro span member
      have start := within.starts span member
      have stop := within.stops span member
      exact adopted_cutAtStart (by omega) (by omega) positive
    obtain ⟨made, other, last, added, replaced, edited⟩ := rebuilt
      (cutAtStart prependOffset) holds shows within (by omega) room (by omega) (by
        intro span member other found
        have start := within.starts span member
        have stop := within.stops span member
        rw [cut span member] at found
        split at found
        · obtain rfl := Option.some.inj found
          simp only
          omega
        · cases found)
    refine ⟨last, other, _, ?_, edited, ?_, ?_⟩
    · simp only [added, replaced, Option.bind_eq_bind, Option.bind_some]
      rfl
    · intro span member
      obtain ⟨before, old, found⟩ := List.mem_filterMap.mp member
      rw [cut before old] at found
      split at found
      · obtain rfl := Option.some.inj found
        exact le_max_right _ _
      · cases found
    · intro offset after
      apply marks_filterMap (fun _ _ _ found => adopted_toTag found)
      intro span member
      rw [cut span member]
      split
      · simp only [Option.some.injEq, exists_eq_left', Span.Covers]
        omega
      · simp only [reduceCtorEq, false_and, exists_false, false_iff, Span.Covers]
        omega

theorem addList_spec {limit' : ℤ} (holds : mem.Holds (list.logs ++ others))
    (shows : list.Shows mem spans) (within : Within limit list spans) (showsO : o.Shows mem more)
    (withinO : Within limit' o more) (member : o.logs ⊆ others) (small : limit < 2 ^ 30)
    (smallO : limit' < 2 ^ 30) (larger : limit ≤ limit')
    (room : stored spans + stored more < 2 ^ 32) :
    ∃ last list' spans', list.addList mem o = some (last, list') ∧
      last.Holds (list'.logs ++ others) ∧ list'.Shows last spans' ∧ mem.Kept last others ∧
      stored spans' ≤ stored spans + stored more ∧ Within limit' list' spans' ∧
      ∀ offset, 0 ≤ offset → marks spans' offset = marks spans offset ++ marks more offset := by
  have whole : ∀ span ∈ more, adopted (fun start stop => some (start, stop)) span =
      if 0 < span.stop then some { span with start := max span.start 0 } else none := by
    intro span inMore
    have start := withinO.starts span inMore
    have stop := withinO.stops span inMore
    unfold adopted
    rw [changed_eq _ (by omega)]
    by_cases inside : 0 < span.stop
    · rw [if_pos inside, if_pos ((between_iff (by omega)).mpr inside)]
      rfl
    · rw [if_neg inside, if_neg (fun between => inside ((between_iff (by omega)).mp between))]
  have limits : ∀ span ∈ more.filterMap (adopted fun start stop => some (start, stop)),
      (-limit' ≤ span.start ∧ span.start ≤ limit') ∧
        -limit' ≤ span.stop ∧ span.stop ≤ limit' := by
    intro span inNew
    obtain ⟨before, old, found⟩ := List.mem_filterMap.mp inNew
    have start := withinO.starts before old
    have stop := withinO.stops before old
    rw [whole before old] at found
    split at found
    · obtain rfl := Option.some.inj found
      simp only
      omega
    · cases found
  obtain ⟨lower, upper⟩ := within.adjustment
  obtain ⟨last, list', added, held, shown, kept, same⟩ := addItems_spec
    (fun start stop => some (start, stop)) holds shows showsO member
    (withinO.inRange (by omega)) room (by
      intro span inNew
      obtain ⟨start, stop⟩ := limits span inNew
      simp only [Span.InRange, Span.shift]
      omega)
  have shorter : stored (more.filterMap (adopted fun start stop => some (start, stop))) ≤ _ :=
    stored_filterMap fun span _ changed found => adopted_toTag found
  refine ⟨last, list', _, added, held, shown, kept, ?_, ⟨?_, ?_, ?_⟩, ?_⟩
  · rw [stored_append]
    omega
  · rw [same]
    omega
  · intro span inBoth
    rcases List.mem_append.mp inBoth with old | new
    · have start := within.starts span old
      omega
    · exact (limits span new).1
  · intro span inBoth
    rcases List.mem_append.mp inBoth with old | new
    · have stop := within.stops span old
      omega
    · exact (limits span new).2
  · intro offset after
    rw [marks_append]
    congr 1
    have covered : marks (more.filterMap (adopted fun start stop => some (start, stop))) offset =
        if True then marks more offset else [] :=
      marks_filterMap (fun _ _ _ found => adopted_toTag found) (by
        intro span inMore
        rw [whole span inMore]
        split
        · simp only [Option.some.injEq, exists_eq_left', Span.Covers, and_true]
          omega
        · simp only [reduceCtorEq, false_and, exists_false, false_iff, Span.Covers, and_true]
          omega)
    rwa [if_pos trivial] at covered

end ByteTagList

end FISim.ByteTags
