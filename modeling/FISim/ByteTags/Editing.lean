import FISim.ByteTags.Adding

/-!
What the editing functions of a list of byte tags do to the tags of each byte.
-/

namespace FISim.ByteTags

open Cells SharedLogs

namespace Span

def Covers (offset : ℤ) (span : Span) : Prop := span.start ≤ offset ∧ offset < span.stop

instance (offset : ℤ) : DecidablePred (Covers offset) := fun _ => instDecidableAnd

end Span

def marks (spans : List Span) (offset : ℤ) : List Tag :=
  (spans.filter (Span.Covers offset)).map Span.toTag

@[simp] theorem marks_nil (offset : ℤ) : marks [] offset = [] := rfl

theorem marks_append (first second : List Span) (offset : ℤ) :
    marks (first ++ second) offset = marks first offset ++ marks second offset := by
  simp [marks]

theorem marks_cons (span : Span) (spans : List Span) (offset : ℤ) :
    marks (span :: spans) offset =
      (if span.Covers offset then [span.toTag] else []) ++ marks spans offset := by
  unfold marks
  by_cases covers : span.Covers offset
  · rw [List.filter_cons_of_pos (by simpa using covers), if_pos covers]
    rfl
  · rw [List.filter_cons_of_neg (by simpa using covers), if_neg covers]
    rfl

theorem marks_shift (spans : List Span) (by_ offset : ℤ) :
    marks (spans.map (Span.shift by_)) offset = marks spans (offset - by_) := by
  induction spans with
  | nil => rfl
  | cons span spans ih =>
      have same : (span.shift by_).Covers offset ↔ span.Covers (offset - by_) := by
        simp only [Span.Covers, Span.shift]
        omega
      simp only [List.map_cons, marks_cons, ih, same]
      rfl

theorem marks_filterMap {change : Span → Option Span} {spans : List Span} {offset : ℤ}
    {keep : Prop} [Decidable keep]
    (tags : ∀ span ∈ spans, ∀ changed, change span = some changed → changed.toTag = span.toTag)
    (covers : ∀ span ∈ spans, (∃ changed, change span = some changed ∧ changed.Covers offset) ↔
      span.Covers offset ∧ keep) :
    marks (spans.filterMap change) offset = if keep then marks spans offset else [] := by
  induction spans with
  | nil => simp
  | cons span spans ih =>
      have rest := ih (fun other member => tags other (List.mem_cons_of_mem _ member))
        (fun other member => covers other (List.mem_cons_of_mem _ member))
      have first := covers span List.mem_cons_self
      cases changed : change span with
      | none =>
          rw [List.filterMap_cons_none changed, rest, marks_cons]
          by_cases kept : keep
          · have out : ¬ span.Covers offset := by
              intro inside
              obtain ⟨_, found, -⟩ := first.mpr ⟨inside, kept⟩
              rw [changed] at found
              cases found
            rw [if_pos kept, if_pos kept, if_neg out, List.nil_append]
          · rw [if_neg kept, if_neg kept]
      | some other =>
          have same := tags span List.mem_cons_self other changed
          have covered : other.Covers offset ↔ span.Covers offset ∧ keep := by
            rw [← first, changed]
            simp
          rw [List.filterMap_cons_some changed, marks_cons, marks_cons, rest, same]
          by_cases kept : keep
          · simp only [covered, kept, and_true, if_true]
          · simp only [covered, kept, and_false, if_false, List.nil_append]

def stored (spans : List Span) : ℕ := (spans.map fun span => 16 + span.payload.length).sum

@[simp] theorem stored_append (first second : List Span) :
    stored (first ++ second) = stored first + stored second := by
  simp [stored]

theorem stored_cons (span : Span) (spans : List Span) :
    stored (span :: spans) = 16 + span.payload.length + stored spans := by
  simp [stored]

theorem length_flatMap_encode (adjustment : ℤ) (spans : List Span) :
    (spans.flatMap (Span.encode adjustment)).length = stored spans := by
  simp [stored, List.length_flatMap]

theorem stored_shift (offset : ℤ) (spans : List Span) :
    stored (spans.map (Span.shift offset)) = stored spans := by
  simp only [stored, List.map_map]
  rfl

theorem stored_filterMap {change : Span → Option Span} {spans : List Span}
    (tags : ∀ span ∈ spans, ∀ changed, change span = some changed → changed.toTag = span.toTag) :
    stored (spans.filterMap change) ≤ stored spans := by
  induction spans with
  | nil => simp [stored]
  | cons span spans ih =>
      have rest := ih fun other member => tags other (List.mem_cons_of_mem _ member)
      cases changed : change span with
      | none =>
          rw [List.filterMap_cons_none changed, stored_cons]
          omega
      | some other =>
          have same := tags span List.mem_cons_self other changed
          rw [List.filterMap_cons_some changed, stored_cons, stored_cons,
            show other.payload = span.payload from congrArg Tag.payload same]
          omega

namespace ByteTagList

/-- The list stores the spans, and knows bounds of where they start and end. -/
structure Shows (mem : Memory) (list : ByteTagList) (spans : List Span) : Prop where
  bytes : list.bytes mem = spans.flatMap (Span.encode list.adjustment)
  empty : list.data = none → list.used = 0
  minStart : ∀ span ∈ spans, list.minStart ≤ span.start - list.adjustment
  maxEnd : ∀ span ∈ spans, span.stop - list.adjustment ≤ list.maxEnd

/-- The offsets are so small that no computation with them overflows. -/
structure Within (limit : ℤ) (list : ByteTagList) (spans : List Span) : Prop where
  adjustment : -limit ≤ list.adjustment ∧ list.adjustment ≤ limit
  starts : ∀ span ∈ spans, -limit ≤ span.start ∧ span.start ≤ limit
  stops : ∀ span ∈ spans, -limit ≤ span.stop ∧ span.stop ≤ limit

variable {mem mem' : Memory} {list o : ByteTagList} {spans more : List Span} {others : List Log}
  {limit : ℤ}

theorem shows_empty (mem : Memory) : Shows mem {} [] where
  bytes := rfl
  empty _ := rfl
  minStart _ member := by cases member
  maxEnd _ member := by cases member

theorem Shows.used (shows : list.Shows mem spans) : list.used = stored spans := by
  have bytes := congrArg List.length shows.bytes
  rw [length_flatMap_encode] at bytes
  unfold ByteTagList.bytes at bytes
  cases isData : list.data with
  | none =>
      rw [isData] at bytes
      rw [shows.empty isData, ← bytes]
      rfl
  | some data =>
      rw [isData] at bytes
      simpa using bytes

theorem Shows.kept (shows : list.Shows mem spans) (kept : mem.Kept mem' list.logs) :
    list.Shows mem' spans :=
  ⟨(bytes_kept kept).trans shows.bytes, shows.empty, shows.minStart, shows.maxEnd⟩

theorem Within.inRange (within : Within limit list spans) (small : limit < 2 ^ 31) :
    ∀ span ∈ spans, span.InRange := by
  intro span member
  have start := within.starts span member
  have stop := within.stops span member
  exact ⟨⟨by omega, by omega⟩, by omega, by omega⟩

theorem forEach_beginAt {State : Type} (memory : State → Memory)
    (body : Item → State → Option State) (inv : List Span → State → Prop) (low high : ℤ)
    (state : State) (shows : list.Shows (memory state) spans) (small : list.used < 2 ^ 32)
    (inRange : ∀ span ∈ spans, span.InRange)
    (keeps : ∀ span rest item next, inv (span :: rest) next →
      (∀ mem, list.bytes mem = list.bytes (memory state) → item.Shows mem low high span) →
        ∃ later, body item next = some later ∧ inv rest later)
    (kept : ∀ rest next, inv rest next → list.bytes (memory next) = list.bytes (memory state))
    (holds : inv (spans.filter (Span.Between low high)) state) :
    ∃ it last, list.beginAt (memory state) low high = some it ∧
      it.forEach memory body it.fuel state = some last ∧ inv [] last := by
  have used := shows.used
  cases isData : list.data with
  | none =>
      have none : spans = [] := by
        rw [shows.empty isData] at used
        cases spans with
        | nil => rfl
        | cons span spans =>
            rw [stored_cons] at used
            omega
      subst none
      refine ⟨{ offsetStart := low, offsetEnd := high, adjustment := 0 }, state, ?_, ?_, holds⟩
      · simp only [beginAt, isData]
        rfl
      · rfl
  | some data =>
      have bytes := shows.bytes
      have length : (list.bytes (memory state)).length = list.used := by
        rw [bytes, length_flatMap_encode, used]
      unfold ByteTagList.bytes at bytes
      simp only [isData] at bytes
      have reading : Iterator.Reading (memory state)
          { data, stop := list.used, offsetStart := low, offsetEnd := high,
            adjustment := list.adjustment } spans := by
        refine ⟨?_, ?_, small, inRange⟩
        · simp only [length_flatMap_encode, ← used]
          exact bytes
        · simp only [length_flatMap_encode, Nat.zero_add, ← used]
      obtain ⟨it, rest, prepared, ready, same, shorter, filtered⟩ :=
        Iterator.prepareForNext_spec (list.used + 1) reading (by
          have short := reading.length_le
          simp only at short
          omega)
      have long : spans.length ≤ list.used := by simpa using reading.length_le
      have stands : ∀ state', list.bytes (memory state') = list.bytes (memory state) →
          slice ((memory state').data data).data 0 (list.bytes (memory state)).length =
            list.bytes (memory state) := by
        intro state' unchanged
        rw [length, ← unchanged]
        simp only [ByteTagList.bytes, isData]
      simp only at filtered
      obtain ⟨last, ended, reached⟩ := it.forEach_spec memory body inv
        (fun span rest item next holds' shown => by
          obtain ⟨later, done, holds''⟩ := keeps span rest item next holds' fun mem unchanged =>
            shown mem (by
              rw [length, ← unchanged]
              simp only [ByteTagList.bytes, isData])
          exact ⟨later, done, holds'', stands later (kept rest later holds'')⟩)
        same.data (same.stop.trans length.symm) same.offsetStart same.offsetEnd (stands state rfl)
        ready (by
          show rest.length < it.fuel
          unfold Iterator.fuel
          rw [same.stop]
          simp only
          omega) (by rw [filtered]; exact holds)
      refine ⟨it, last, ?_, ended, reached⟩
      simp only [beginAt, isData]
      exact prepared

theorem Shows.extended {span : Span} {data : ℕ} (shows : list.Shows mem spans)
    (bytes : (list.extended data span).bytes mem' = list.bytes mem ++ span.encode list.adjustment) :
    (list.extended data span).Shows mem' (spans ++ [span]) := by
  refine ⟨?_, ?_, ?_, ?_⟩
  · rw [bytes, shows.bytes, List.flatMap_append, List.flatMap_singleton]
    rfl
  · intro none
    simp [ByteTagList.extended] at none
  · intro other member
    simp only [ByteTagList.extended]
    rcases List.mem_append.mp member with old | new
    · have least := shows.minStart other old
      omega
    · rw [List.mem_singleton.mp new]
      omega
  · intro other member
    simp only [ByteTagList.extended]
    rcases List.mem_append.mp member with old | new
    · have most := shows.maxEnd other old
      omega
    · rw [List.mem_singleton.mp new]
      omega

def changed (change : ℤ → ℤ → Option (ℤ × ℤ)) (span : Span) : Option Span :=
  (change (max span.start 0) (min span.stop int32Max)).map fun (start, stop) =>
    { span with start, stop }

/-- What becomes of a span that is added to another list. -/
def adopted (change : ℤ → ℤ → Option (ℤ × ℤ)) (span : Span) : Option Span :=
  if span.Between 0 int32Max then changed change span else none

theorem adopted_toTag {change : ℤ → ℤ → Option (ℤ × ℤ)} {span other : Span}
    (found : adopted change span = some other) : other.toTag = span.toTag := by
  unfold adopted at found
  split at found
  · obtain ⟨_, -, rfl⟩ := Option.map_eq_some_iff.mp found
    rfl
  · cases found

theorem filterMap_adopted (change : ℤ → ℤ → Option (ℤ × ℤ)) (spans : List Span) :
    (spans.filter (Span.Between 0 int32Max)).filterMap (changed change) =
      spans.filterMap (adopted change) := by
  rw [List.filterMap_filter]
  congr 1
  funext span
  simp only [adopted, decide_eq_true_eq]

theorem addItems_spec (change : ℤ → ℤ → Option (ℤ × ℤ)) (holds : mem.Holds (list.logs ++ others))
    (shows : list.Shows mem spans) (showsO : o.Shows mem more) (member : o.logs ⊆ others)
    (inRangeO : ∀ span ∈ more, span.InRange) (room : stored spans + stored more < 2 ^ 32)
    (inRange : ∀ span ∈ more.filterMap (adopted change), (span.shift (-list.adjustment)).InRange) :
    ∃ last list', list.addItems change mem o = some (last, list') ∧
      last.Holds (list'.logs ++ others) ∧
      list'.Shows last (spans ++ more.filterMap (adopted change)) ∧
      mem.Kept last others ∧ list'.adjustment = list.adjustment := by
  have shorter : stored (more.filterMap (adopted change)) ≤ stored more :=
    stored_filterMap fun span _ changed found => adopted_toTag found
  obtain ⟨it, ⟨last, list'⟩, begun, ended, done, whole, held, shown, kept, same⟩ :=
    o.forEach_beginAt Prod.fst (addItem change)
      (fun rest state => ∃ done,
        done ++ rest.filterMap (changed change) = more.filterMap (adopted change) ∧
        state.1.Holds (state.2.logs ++ others) ∧ state.2.Shows state.1 (spans ++ done) ∧
        mem.Kept state.1 others ∧ state.2.adjustment = list.adjustment)
      0 int32Max (mem, list) showsO (by rw [showsO.used]; omega) inRangeO
      (by
        rintro span rest item ⟨mem₁, list₁⟩ ⟨done, whole, held, shown, kept, same⟩ items
        simp only at held shown kept same
        have item₁ := items mem rfl
        cases isChange : change (max span.start 0) (min span.stop int32Max) with
        | none =>
            refine ⟨(mem₁, list₁), ?_, done, ?_, held, shown, kept, same⟩
            · simp only [addItem, item₁.start, item₁.stop, isChange]
            · rwa [List.filterMap_cons_none (by simp [changed, isChange])] at whole
        | some bounds =>
            obtain ⟨start, stop⟩ := bounds
            have new : changed change span = some { span with start, stop } := by
              simp [changed, isChange]
            rw [List.filterMap_cons_some new] at whole
            have sizes := congrArg stored whole
            rw [stored_append, stored_cons] at sizes
            have used := shown.used
            rw [stored_append] at used
            obtain ⟨made, data, added, keptMade, filled, wrote, heldFilled, bytes, keptFilled⟩ :=
              add_spec { span with start, stop } held shown.empty
                ⟨by simp only at sizes ⊢; omega, by
                  rw [same]
                  exact inRange _ (by rw [← whole]; simp)⟩
            have item₂ := items made (bytes_kept
              ((kept.trans keptMade).subset member))
            refine ⟨(filled, list₁.extended data { span with start, stop }), ?_,
              done ++ [{ span with start, stop }], by simpa using whole, heldFilled, ?_,
              kept.trans keptFilled, same⟩
            · simp only [addItem, item₁.start, item₁.stop, isChange, item₁.tid, item₁.size, added,
                Option.bind_eq_bind, Option.bind_some, TagBuffer.copyFrom, guard_of item₁.ordered,
                item₂.payload, wrote]
              rfl
            · rw [← List.append_assoc]
              exact shown.extended bytes)
      (by
        rintro rest ⟨mem₁, list₁⟩ ⟨_, _, _, _, kept, _⟩
        exact bytes_kept (kept.subset member))
      ⟨[], by rw [List.nil_append, filterMap_adopted], holds, by simpa using shows, .refl _ _, rfl⟩
  simp only [List.filterMap_nil, List.append_nil] at whole
  subst whole
  refine ⟨last, list', ?_, held, shown, kept, same⟩
  have begun' : o.beginAll mem = some it := begun
  simp only [addItems, begun', Option.bind_eq_bind, Option.bind_some]
  exact ended

end ByteTagList

end FISim.ByteTags
