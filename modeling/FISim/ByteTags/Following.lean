import FISim.ByteTags.Clipping
import FISim.ByteTags.Packet

/-!
Byte tags follow their bytes: the tags that a packet reports for a byte are those
that the byte has been given, in this packet or in one that it comes from.
-/

namespace FISim.ByteTags

open Cells SharedLogs Transition ByteTagList

namespace Packet

/-- The spans of the list give the bytes of the packet their tags; what they say of offsets behind
its end or before its start does not matter. -/
structure Carries (mem : Memory) (p : Packet) (q : TaggedBytes) (spans : List Span) : Prop where
  size : p.size = q.bytes.length
  shows : p.tags.Shows mem spans
  within : Within q.travel p.tags spans
  size_le : p.size ≤ q.travel
  stored_le : stored spans ≤ q.held
  marks : ∀ index < p.size, q.bytes[index]? = some (ByteTags.marks spans index)

def Represents (mem : Memory) (p : Packet) (q : TaggedBytes) : Prop :=
  ∃ spans, p.Carries mem q spans

variable {mem mem' : Memory} {p o : Packet} {q r : TaggedBytes} {spans more : List Span}
  {others : List Log}

theorem Represents.kept (represents : p.Represents mem q) (kept : mem.Kept mem' p.tags.logs) :
    p.Represents mem' q := by
  obtain ⟨spans, carries⟩ := represents
  exact ⟨spans, carries.size, carries.shows.kept kept, carries.within, carries.size_le,
    carries.stored_le, carries.marks⟩

theorem within_mono {limit limit' : ℤ} {list : ByteTagList} (within : Within limit list spans)
    (larger : limit ≤ limit') : Within limit' list spans := by
  obtain ⟨lower, upper⟩ := within.adjustment
  refine ⟨by omega, ?_, ?_⟩
  · intro span member
    have start := within.starts span member
    omega
  · intro span member
    have stop := within.stops span member
    omega

theorem int32_ofNat {size : ℕ} (small : size < 2 ^ 30) : int32 size = size :=
  int32_eq (by omega) (by omega)

theorem int32_neg {size : ℕ} (small : size < 2 ^ 30) : int32 (-size) = -size :=
  int32_eq (by omega) (by omega)

/-- What an operation on one packet does, seen from the other packets. -/
structure Does (mem last : Memory) (p' : Packet) (q' : TaggedBytes) (others : List Log) : Prop where
  holds : last.Holds (p'.tags.logs ++ others)
  kept : mem.Kept last others
  represents : p'.Represents last q'

theorem addHeader_spec {size : ℕ} (holds : mem.Holds (p.tags.logs ++ others))
    (carries : p.Carries mem q spans) (small : q.travel + size < 2 ^ 30) (room : q.held < 2 ^ 32) :
    ∃ last p', p.addHeader mem size = some (last, p') ∧ Does mem last p'
      { q with bytes := TaggedBytes.untagged size ++ q.bytes, travel := q.travel + size } others := by
  obtain ⟨isSize, shows, within, size_le, stored_le, marks⟩ := carries
  obtain ⟨lower, upper⟩ := within.adjustment
  have adjusted := shows.adjust size (by omega) (by omega)
  have moved := within.adjust size size (by omega) (by omega)
  have stored_eq := stored_shift size spans
  have here : mem.Holds ((p.tags.adjust size).logs ++ others) := holds
  obtain ⟨last, tags, spans', added, edited, -, cut⟩ := addAtStart_spec size here adjusted moved
    (by omega) (by omega) (by omega) (by omega)
  refine ⟨last, ⟨p.size + size, tags⟩, ?_, edited.holds, edited.kept, spans', ?_⟩
  · simp only [addHeader, int32_ofNat (show size < 2 ^ 30 by omega), added, Option.bind_eq_bind,
      Option.bind_some]
    rfl
  · refine ⟨?_, edited.shows, ?_, ?_, ?_, ?_⟩
    · simp only [List.length_append, TaggedBytes.untagged, List.length_replicate]
      omega
    · have same := edited.within
      push_cast
      exact same
    · simp only
      omega
    · have less := edited.stored_le
      simp only
      omega
    · intro index inside
      rw [cut index (by omega), marks_shift]
      by_cases old : size ≤ index
      · rw [if_pos (by omega), List.getElem?_append_right (by simpa [TaggedBytes.untagged] using old)]
        have found := marks (index - size) (by simp only at inside; omega)
        simp only [TaggedBytes.untagged, List.length_replicate, found]
        congr 2
        omega
      · rw [if_neg (by omega), List.getElem?_append_left (by
          simp only [TaggedBytes.untagged, List.length_replicate]; omega)]
        simp only [TaggedBytes.untagged, List.getElem?_replicate]
        rw [if_pos (by omega)]

theorem removeAtStart_spec {size : ℕ} (holds : mem.Holds (p.tags.logs ++ others))
    (carries : p.Carries mem q spans) (small : q.travel + size < 2 ^ 30) :
    Does mem mem (p.removeAtStart size)
      { q with bytes := q.bytes.drop size, travel := q.travel + size } others := by
  obtain ⟨isSize, shows, within, size_le, stored_le, marks⟩ := carries
  obtain ⟨lower, upper⟩ := within.adjustment
  have adjusted := shows.adjust (-size) (by omega) (by omega)
  have moved := within.adjust (-size) size (by omega) (by omega)
  have offset := int32_neg (show size < 2 ^ 30 by omega)
  refine ⟨holds, .refl _ _, spans.map (Span.shift (-size)), ?_, ?_, ?_, ?_, ?_, ?_⟩
  · simp only [removeAtStart, List.length_drop, isSize]
  · simp only [removeAtStart, offset]
    exact adjusted
  · simp only [removeAtStart, offset]
    push_cast
    exact moved
  · simp only [removeAtStart]
    omega
  · rw [stored_shift]
    exact stored_le
  · intro index inside
    simp only [removeAtStart] at inside
    rw [marks_shift, List.getElem?_drop, marks (size + index) (by omega)]
    congr 2
    push_cast
    omega

theorem addPaddingAtEnd_spec {size : ℕ} (holds : mem.Holds (p.tags.logs ++ others))
    (carries : p.Carries mem q spans) (small : q.travel + size < 2 ^ 30) (room : q.held < 2 ^ 32) :
    ∃ last p', p.addPaddingAtEnd mem size = some (last, p') ∧ Does mem last p'
      { q with bytes := q.bytes ++ TaggedBytes.untagged size, travel := q.travel + size } others := by
  obtain ⟨isSize, shows, within, size_le, stored_le, marks⟩ := carries
  obtain ⟨last, tags, spans', added, edited, cut⟩ := addAtEnd_spec p.size
    holds shows within (by omega) (by omega) (by omega) (by omega)
  refine ⟨last, ⟨p.size + size, tags⟩, ?_, edited.holds, edited.kept, spans', ?_⟩
  · simp only [addPaddingAtEnd, int32_ofNat (show p.size < 2 ^ 30 by omega), added,
      Option.bind_eq_bind, Option.bind_some]
    rfl
  · refine ⟨?_, edited.shows, within_mono edited.within (by simp only; omega), ?_, ?_, ?_⟩
    · simp only [List.length_append, TaggedBytes.untagged, List.length_replicate, isSize]
    · simp only
      omega
    · have less := edited.stored_le
      simp only
      omega
    · intro index inside
      simp only at inside
      rw [cut index (by omega)]
      by_cases old : index < p.size
      · rw [if_pos (by omega), List.getElem?_append_left (by omega), marks index old]
      · rw [if_neg (by omega), List.getElem?_append_right (by omega)]
        simp only [TaggedBytes.untagged, List.getElem?_replicate]
        rw [if_pos (by omega)]

theorem removeAtEnd_spec {size : ℕ} (holds : mem.Holds (p.tags.logs ++ others))
    (carries : p.Carries mem q spans) : Does mem mem (p.removeAtEnd size)
      { q with bytes := q.bytes.take (q.bytes.length - size) } others := by
  obtain ⟨isSize, shows, within, size_le, stored_le, marks⟩ := carries
  refine ⟨holds, .refl _ _, spans, ?_, shows, within, ?_, stored_le, ?_⟩
  · simp only [removeAtEnd, List.length_take, isSize]
    omega
  · simp only [removeAtEnd]
    omega
  · intro index inside
    simp only [removeAtEnd] at inside
    rw [List.getElem?_take_of_lt (by omega), marks index (by omega)]

theorem addTag_spec (tag : Tag) (start stop : ℕ) {travel : ℕ}
    (holds : mem.Holds (p.tags.logs ++ others)) (carries : p.Carries mem q spans)
    (ordered : start ≤ stop) (further : q.travel ≤ travel) (reaches : stop ≤ travel)
    (small : travel < 2 ^ 30) (room : q.held + 16 + tag.payload.length < 2 ^ 32) :
    ∃ made tags buffer last done,
      p.tags.add mem tag.tid (UInt32.ofNat tag.payload.length) start stop =
        some (made, tags, buffer) ∧ buffer.write made tag.payload = some (last, done) ∧
      Does mem last { p with tags }
        { bytes := TaggedBytes.tagged tag start stop q.bytes
          travel
          held := q.held + 16 + tag.payload.length } others := by
  obtain ⟨isSize, shows, within, size_le, stored_le, marks⟩ := carries
  obtain ⟨lower, upper⟩ := within.adjustment
  have used := shows.used
  obtain ⟨made, data, added, -, last, wrote, held, bytes, kept⟩ := add_spec
    { tag with start, stop } holds shows.empty ⟨by simp only; omega, by
      simp only [Span.InRange, Span.shift]
      omega⟩
  refine ⟨made, _, _, last, _, added, wrote, held, kept, _, ?_, shows.extended bytes, ?_, ?_, ?_,
    ?_⟩
  · simp only [TaggedBytes.tagged, List.length_mapIdx, isSize]
  · refine ⟨?_, ?_, ?_⟩
    · simp only [extended]
      omega
    · intro span member
      rcases List.mem_append.mp member with old | new
      · have starts := within.starts span old
        simp only
        omega
      · rw [List.mem_singleton.mp new]
        simp only
        omega
    · intro span member
      rcases List.mem_append.mp member with old | new
      · have stops := within.stops span old
        simp only
        omega
      · rw [List.mem_singleton.mp new]
        simp only
        omega
  · simp only
    omega
  · rw [stored_append, stored_cons]
    have none : stored [] = 0 := rfl
    simp only
    omega
  · intro index inside
    simp only at inside
    rw [marks_append, marks_cons, TaggedBytes.tagged, List.getElem?_mapIdx, marks index inside]
    by_cases covered : start ≤ index ∧ index < stop
    · have covers : Span.Covers index { tag with start, stop } := by
        simp only [Span.Covers]
        omega
      simp only [Option.map_some, if_pos covered, if_pos covers, marks_nil, List.append_nil]
    · have out : ¬ Span.Covers index { tag with start, stop } := by
        simp only [Span.Covers]
        omega
      simp only [Option.map_some, if_neg covered, if_neg out, marks_nil, List.append_nil]

theorem removeAllByteTags_spec (holds : mem.Holds (p.tags.logs ++ others))
    (carries : p.Carries mem q spans) :
    ∃ last p', p.removeAllByteTags mem = (last, p') ∧ Does mem last p'
      { q with bytes := TaggedBytes.untagged q.bytes.length } others := by
  obtain ⟨isSize, shows, within, size_le, stored_le, marks⟩ := carries
  obtain ⟨held, kept⟩ := holds_deallocate _ holds
  refine ⟨_, _, rfl, held, kept others, [], ?_, shows_empty _, ?_, size_le, ?_, ?_⟩
  · simp only [TaggedBytes.untagged, List.length_replicate, isSize]
  · exact ⟨by simp only; omega, fun _ member => absurd member List.not_mem_nil,
      fun _ member => absurd member List.not_mem_nil⟩
  · exact Nat.zero_le _
  · intro index inside
    simp only at inside
    simp only [TaggedBytes.untagged, List.getElem?_replicate, marks_nil]
    rw [if_pos (by omega)]

theorem edit_spec {edit : Edit} {q' : TaggedBytes} (holds : mem.Holds (p.tags.logs ++ others))
    (represents : p.Represents mem q) (edited : q.edit edit = some q') (small : q'.Small) :
    ∃ last p', p.edit mem edit = some (last, p') ∧ Does mem last p' q' others := by
  obtain ⟨spans, carries⟩ := represents
  obtain ⟨near, room⟩ := small
  cases edit with
  | addHeader size =>
      obtain rfl := Option.some.inj edited
      exact addHeader_spec holds carries near room
  | removeHeader size =>
      obtain rfl := Option.some.inj edited
      exact ⟨mem, _, rfl, removeAtStart_spec holds carries near⟩
  | addTrailer size =>
      obtain rfl := Option.some.inj edited
      exact addPaddingAtEnd_spec holds carries near room
  | removeTrailer size =>
      obtain rfl := Option.some.inj edited
      exact ⟨mem, _, rfl, removeAtEnd_spec holds carries⟩
  | addPaddingAtEnd size =>
      obtain rfl := Option.some.inj edited
      exact addPaddingAtEnd_spec holds carries near room
  | removeAtStart size =>
      obtain rfl := Option.some.inj edited
      exact ⟨mem, _, rfl, removeAtStart_spec holds carries near⟩
  | removeAtEnd size =>
      obtain rfl := Option.some.inj edited
      exact ⟨mem, _, rfl, removeAtEnd_spec holds carries⟩
  | addByteTag tag =>
      obtain rfl := Option.some.inj edited
      have isSize := carries.size
      have reaches := carries.size_le
      obtain ⟨made, tags, buffer, last, done, added, wrote, does⟩ := addTag_spec tag
        0 p.size holds carries (Nat.zero_le _) (Nat.le_refl _) reaches near room
      rw [← isSize]
      refine ⟨last, { p with tags }, ?_, does⟩
      have size : int32 p.size = p.size := int32_ofNat (by simp only at near; omega)
      simp only [Packet.edit, Packet.addByteTag, size, Option.bind_eq_bind]
      rw [show (0 : ℤ) = ((0 : ℕ) : ℤ) from rfl, added, Option.bind_some, wrote]
      rfl
  | addByteTagTo tag start stop =>
      simp only [TaggedBytes.edit, Option.bind_eq_bind, Option.bind_eq_some_iff,
        Option.guard_eq_some'] at edited
      obtain ⟨-, ordered, same⟩ := edited
      obtain rfl := Option.some.inj same
      simp only at near room
      obtain ⟨made, tags, buffer, last, done, added, wrote, does⟩ := addTag_spec tag
        start stop holds carries ordered (Nat.le_add_right _ _)
        (Nat.le_add_left _ _) near room
      refine ⟨last, { p with tags }, ?_, does⟩
      have first : int32 start = start := int32_ofNat (by omega)
      have second : int32 stop = stop := int32_ofNat (by omega)
      simp only [Packet.edit, Packet.addByteTagTo, guard_of (Nat.not_lt.mpr ordered), first, second,
        added, wrote, Option.bind_eq_bind, Option.bind_some]
      rfl
  | removeAllByteTags =>
      obtain rfl := Option.some.inj edited
      obtain ⟨last, p', removed, does⟩ := removeAllByteTags_spec holds carries
      exact ⟨last, p', congrArg some removed, does⟩

theorem logs_adjust (list : ByteTagList) (offset : ℤ) : (list.adjust offset).logs = list.logs := rfl

theorem marks_before {limit offset : ℤ} (starts : ∀ span ∈ spans, limit ≤ span.start)
    (before : offset < limit) : marks spans offset = [] := by
  unfold ByteTags.marks
  rw [List.map_eq_nil_iff, List.filter_eq_nil_iff]
  intro span member covers
  have start := starts span member
  have inside := (of_decide_eq_true covers).1
  omega

theorem create_spec (size : ℕ) (holds : mem.Holds others) :
    Does mem mem (create size) ⟨TaggedBytes.untagged size, size, 0⟩ others := by
  refine ⟨holds, .refl _ _, [], ?_, shows_empty mem, ?_, le_refl size, le_refl 0, ?_⟩
  · simp only [create, TaggedBytes.untagged, List.length_replicate]
  · exact ⟨by simp only [create]; omega, fun _ member => absurd member List.not_mem_nil,
      fun _ member => absurd member List.not_mem_nil⟩
  · intro index inside
    have below : index < size := inside
    simp only [TaggedBytes.untagged, List.getElem?_replicate, marks_nil, if_pos below]

theorem copy_spec (holds : mem.Holds others) (member : o.tags.logs ⊆ others)
    (represents : o.Represents mem r) : Does mem (o.copy mem).1 (o.copy mem).2 r others := by
  obtain ⟨held, kept⟩ := holds_share holds member
  exact ⟨held, kept.subset (List.subset_append_right _ _),
    represents.kept (kept.subset (List.subset_append_left _ _))⟩

theorem assign_spec (holds : mem.Holds (p.tags.logs ++ others)) (member : o.tags.logs ⊆ others)
    (represents : o.Represents mem r) :
    Does mem (p.assign mem o).1 (p.assign mem o).2 r others := by
  obtain ⟨held, kept⟩ := holds_assign holds member
  exact ⟨held, kept.subset (List.subset_append_right _ _),
    represents.kept (kept.subset (List.subset_append_left _ _))⟩

theorem createFragment_spec {start length : ℕ} (holds : mem.Holds others)
    (member : o.tags.logs ⊆ others) (represents : o.Represents mem r)
    (inside : start + length ≤ r.bytes.length) (small : r.travel + start < 2 ^ 30) :
    ∃ last p', o.createFragment mem start length = some (last, p') ∧ Does mem last p'
      { r with bytes := (r.bytes.drop start).take length, travel := r.travel + start } others := by
  obtain ⟨spans, isSize, shows, within, size_le, stored_le, marks⟩ := represents
  obtain ⟨lower, upper⟩ := within.adjustment
  obtain ⟨held, kept⟩ := holds_share holds member
  -- The list on the stack, the copy of it in the fragment, and the list on the stack gone.
  obtain ⟨again, same⟩ := holds_share (o := o.tags.adjust (int32 (-start))) held
    (List.subset_append_left _ _)
  obtain ⟨last, gone⟩ := holds_deallocate o.tags again
  have unchanged : mem.Kept ((((mem.share o.tags.data).share o.tags.data)).deallocate o.tags.data)
      (o.tags.logs ++ others) :=
    (kept.trans (same.subset (List.subset_append_right _ _))).trans (gone _)
  have shown := shows.kept (unchanged.subset (List.subset_append_left _ _))
  have adjusted := shown.adjust (-start) (by omega) (by omega)
  have moved := within.adjust (-start) start (by omega) (by omega)
  have offset := int32_neg (show start < 2 ^ 30 by omega)
  refine ⟨_, ⟨length, o.tags.adjust (int32 (-start))⟩, ?_, last,
    unchanged.subset (List.subset_append_right _ _), spans.map (Span.shift (-start)), ?_⟩
  · simp only [createFragment, guard_of (show start + length ≤ o.size by omega), ByteTagList.copy,
      Option.bind_eq_bind, Option.bind_some]
    rfl
  · refine ⟨?_, ?_, ?_, ?_, ?_, ?_⟩
    · simp only [List.length_take, List.length_drop]
      omega
    · rw [offset]
      exact adjusted
    · rw [offset]
      push_cast
      exact moved
    · simp only
      omega
    · rw [stored_shift]
      exact stored_le
    · intro index within_
      simp only at within_
      rw [marks_shift, List.getElem?_take_of_lt within_, List.getElem?_drop,
        marks (start + index) (by omega)]
      congr 2
      push_cast
      omega

theorem addAtEnd_spec (holds : mem.Holds (p.tags.logs ++ others)) (member : o.tags.logs ⊆ others)
    (represents : p.Represents mem q) (representsO : o.Represents mem r)
    (small : q.travel + r.travel < 2 ^ 30) (room : q.held + r.held < 2 ^ 32) :
    ∃ last p', p.addAtEnd mem o = some (last, p') ∧ Does mem last p'
      { bytes := q.bytes ++ r.bytes, travel := q.travel + r.travel, held := q.held + r.held }
        others := by
  obtain ⟨spans, isSize, shows, within, size_le, stored_le, marks⟩ := represents
  obtain ⟨more, isSizeO, showsO, withinO, size_leO, stored_leO, marksO⟩ := representsO
  obtain ⟨mem₁, tags, spans₁, ended, edited, cut⟩ := ByteTagList.addAtEnd_spec
    p.size holds shows within (by omega) (by omega) (by omega) (by omega)
  obtain ⟨held₂, kept₂⟩ := holds_share edited.holds
    (List.subset_append_of_subset_right tags.logs member)
  have showsO₂ := (showsO.kept (edited.kept.subset member)).kept
    (kept₂.subset (List.subset_append_left _ _))
  obtain ⟨mem₃, copied, more₃, started, editedO, starts, cutO⟩ := addAtStart_spec
    0 held₂ showsO₂ withinO (by omega) (by omega) (Int.le_refl _) (by omega)
  have adjusted := editedO.shows.adjust p.size
    (by have bounds := editedO.within.adjustment; omega)
    (by have bounds := editedO.within.adjustment; omega)
  have moved := editedO.within.adjust p.size p.size (by omega) (by omega)
  have shows₃ := (edited.shows.kept (kept₂.subset (by
    intro log inTags
    exact List.mem_append_right _ (List.mem_append_left _ inTags)))).kept
      (editedO.kept.subset (List.subset_append_left _ _))
  have swapped : mem₃.Holds (tags.logs ++ ((copied.adjust p.size).logs ++ others)) :=
    editedO.holds.perm (by
      rw [logs_adjust, ← List.append_assoc, ← List.append_assoc]
      exact List.perm_append_comm.append_right others)
  have less₁ := edited.stored_le
  have lessO := editedO.stored_le
  obtain ⟨mem₄, list', spans', added, held₄, shown₄, kept₄, stored₄, within₄, both⟩ :=
    addList_spec swapped shows₃ edited.within adjusted
      (within_mono moved (show _ ≤ ((q.travel + r.travel : ℕ) : ℤ) by push_cast; omega)) (List.subset_append_left _ _) (by omega) (by push_cast; omega) (by push_cast; omega)
      (by rw [stored_shift]; omega)
  have stored_le' : stored spans' ≤ q.held + r.held := by
    rw [stored_shift] at stored₄
    omega
  have marked : ∀ index < p.size + o.size,
      (q.bytes ++ r.bytes)[index]? = some (ByteTags.marks spans' index) := by
    intro index inside
    rw [both index (by omega), cut index (by omega), marks_shift]
    by_cases first : index < p.size
    · rw [if_pos (by omega), marks_before starts (by omega), List.append_nil,
        List.getElem?_append_left (by omega), marks index first]
    · rw [if_neg (by omega), List.nil_append, cutO _ (by omega), if_pos (by omega),
        List.getElem?_append_right (by omega), marksO (index - q.bytes.length) (by omega)]
      congr 2
      omega
  have size32 : int32 p.size = p.size := int32_ofNat (by omega)
  have exchanged : mem₄.Holds ((copied.adjust p.size).logs ++ (list'.logs ++ others)) :=
    held₄.perm (by
      rw [← List.append_assoc, ← List.append_assoc]
      exact List.perm_append_comm.append_right others)
  obtain ⟨held₅, kept₅⟩ := holds_deallocate _ exchanged
  refine ⟨_, ⟨p.size + o.size, list'⟩, ?_, held₅, ?_, spans', ?_, shown₄.kept (kept₅ _), within₄,
    Nat.add_le_add size_le size_leO, stored_le', marked⟩
  · simp only [addAtEnd, size32, ended, ByteTagList.copy, started, added, Option.bind_eq_bind,
      Option.bind_some]
    rfl
  · refine edited.kept.trans (.trans (kept₂.subset ?_) (.trans (editedO.kept.subset ?_)
      (.trans (kept₄.subset (List.subset_append_right _ _)) (kept₅ others))))
    · intro log inOthers
      exact List.mem_append_right _ (List.mem_append_right _ inOthers)
    · exact List.subset_append_right _ _
  · simp only [List.length_append, isSize, isSizeO]

end Packet

end FISim.ByteTags
