import FISim.ByteTags.ByteTagList

/-!
Iterating over a list of byte tags reads back the spans whose encodings stand in
its block, clipped to the bytes that are asked for.
-/

namespace FISim.ByteTags

open Cells

theorem int32_eq {value : ℤ} (lower : -2 ^ 31 ≤ value) (upper : value < 2 ^ 31) :
    int32 value = value := by
  unfold int32
  exact Int.bmod_eq_of_le_mul_two (by omega) (by omega)

theorem int32_toNat_ofInt (value adjustment : ℤ) :
    int32 ((UInt32.ofInt value).toNat + adjustment) = int32 (value + adjustment) := by
  have same : ((UInt32.ofInt value).toNat : ℤ) = value % 2 ^ 32 := by
    unfold UInt32.ofInt
    rw [UInt32.toNat_ofNat']
    omega
  unfold int32
  rw [same]
  exact Int.emod_add_bmod value (2 ^ 32)

/-- What a byte is tagged with: a type and the bytes that the tag has been serialized to. -/
structure Tag where
  tid : UInt16
  payload : List UInt8
  deriving DecidableEq, Repr

/-- A tag with the bytes that it is for. -/
structure Span extends Tag where
  start : ℤ
  stop : ℤ
  deriving DecidableEq, Repr

namespace Span

def shift (offset : ℤ) (span : Span) : Span :=
  { span with start := span.start + offset, stop := span.stop + offset }

open FISim.TagBuffer in
def header (adjustment : ℤ) (span : Span) : List UInt8 :=
  writeU32 span.tid.toUInt32 ++ (writeU32 (UInt32.ofNat span.payload.length) ++
    (writeU32 (UInt32.ofInt (span.start - adjustment)) ++
      writeU32 (UInt32.ofInt (span.stop - adjustment))))

def encode (adjustment : ℤ) (span : Span) : List UInt8 := span.header adjustment ++ span.payload

@[simp] theorem header_length (adjustment : ℤ) (span : Span) :
    (span.header adjustment).length = 16 := by
  simp [header]

@[simp] theorem encode_length (adjustment : ℤ) (span : Span) :
    (span.encode adjustment).length = 16 + span.payload.length := by
  simp [encode]

theorem encode_shift (adjustment offset : ℤ) (span : Span) :
    (span.shift offset).encode (adjustment + offset) = span.encode adjustment := by
  have first : span.start + offset - (adjustment + offset) = span.start - adjustment := by omega
  have last : span.stop + offset - (adjustment + offset) = span.stop - adjustment := by omega
  simp only [encode, header, shift, first, last]

def Between (low high : ℤ) (span : Span) : Prop := ¬ (high ≤ span.start ∨ span.stop ≤ low)

instance (low high : ℤ) : DecidablePred (Between low high) := fun _ => instDecidableNot

-- What a signed 32-bit integer holds.
def InRange (span : Span) : Prop :=
  (-2 ^ 31 ≤ span.start ∧ span.start < 2 ^ 31) ∧ -2 ^ 31 ≤ span.stop ∧ span.stop < 2 ^ 31

end Span

theorem guard_of {condition : Prop} [Decidable condition] (holds : condition) :
    (guard condition : Option Unit) = some () := if_pos holds

theorem trimAtEnd_spec {tag : TagBuffer} {trim : ℕ} (inside : tag.current + trim ≤ tag.stop) :
    tag.trimAtEnd trim = some { tag with stop := tag.stop - trim } := by
  simp only [TagBuffer.trimAtEnd, guard_of inside, Option.pure_def, Option.bind_eq_bind,
    Option.bind_some]

theorem readU32_spec {mem : Memory} {tag : TagBuffer} {value : UInt32}
    (inside : tag.current + 4 ≤ tag.stop)
    (stands : slice (mem.data tag.data).data tag.current 4 = FISim.TagBuffer.writeU32 value) :
    tag.readU32 mem = some (value, { tag with current := tag.current + 4 }) := by
  have reads := FISim.TagBuffer.reads_readU32 value []
  rw [List.append_nil] at reads
  simp only [TagBuffer.readU32, TagBuffer.read, guard_of inside, Option.pure_def,
    Option.bind_eq_bind, Option.bind_some, stands, reads]

namespace Iterator

variable {mem : Memory} {it : Iterator} {span : Span} {spans : List Span}

/-- The encodings of the spans stand in front of the iterator, to its end. -/
structure Reading (mem : Memory) (it : Iterator) (spans : List Span) : Prop where
  stands : slice (mem.data it.data).data it.current
    (spans.flatMap (Span.encode it.adjustment)).length = spans.flatMap (Span.encode it.adjustment)
  ends : it.current + (spans.flatMap (Span.encode it.adjustment)).length = it.stop
  small : it.stop < 2 ^ 32
  inRange : ∀ span ∈ spans, span.InRange

structure Same (it after : Iterator) : Prop where
  data : after.data = it.data
  stop : after.stop = it.stop
  offsetStart : after.offsetStart = it.offsetStart
  offsetEnd : after.offsetEnd = it.offsetEnd
  adjustment : after.adjustment = it.adjustment

theorem Same.trans {first second third : Iterator} (before : Same first second)
    (after : Same second third) : Same first third where
  data := after.data.trans before.data
  stop := after.stop.trans before.stop
  offsetStart := after.offsetStart.trans before.offsetStart
  offsetEnd := after.offsetEnd.trans before.offsetEnd
  adjustment := after.adjustment.trans before.adjustment

structure Knows (it : Iterator) (span : Span) : Prop where
  tid : it.nextTid = span.tid.toUInt32
  size : it.nextSize = UInt32.ofNat span.payload.length
  start : it.nextStart = span.start
  stop : it.nextEnd = span.stop

theorem Reading.length_le (reading : it.Reading mem spans) : it.current + spans.length ≤ it.stop := by
  have ends := reading.ends
  have each : spans.length ≤ (spans.flatMap (Span.encode it.adjustment)).length := by
    rw [List.length_flatMap]
    have positive := List.length_le_sum_of_one_le
      (spans.map fun span => (span.encode it.adjustment).length) (by
        intro length member
        obtain ⟨span, -, rfl⟩ := List.mem_map.mp member
        rw [Span.encode_length]
        omega)
    rwa [List.length_map] at positive
  omega

theorem Reading.hasNext (reading : it.Reading mem (span :: spans)) : it.hasNext = true := by
  have length := reading.length_le
  rw [List.length_cons] at length
  exact decide_eq_true (by omega)

theorem Reading.not_hasNext (reading : it.Reading mem []) : it.hasNext = false := by
  have ends := reading.ends
  rw [List.flatMap_nil, List.length_nil] at ends
  exact decide_eq_false (by omega)

theorem Reading.parts (reading : it.Reading mem (span :: spans)) :
    slice (mem.data it.data).data it.current 16 = span.header it.adjustment ∧
      slice (mem.data it.data).data (it.current + 16) span.payload.length = span.payload ∧
      it.current + 16 + span.payload.length + (spans.flatMap (Span.encode it.adjustment)).length =
        it.stop ∧
      slice (mem.data it.data).data (it.current + 16 + span.payload.length)
        (spans.flatMap (Span.encode it.adjustment)).length =
          spans.flatMap (Span.encode it.adjustment) := by
  have stands := reading.stands
  have ends := reading.ends
  rw [List.flatMap_cons, List.length_append, Span.encode_length] at stands ends
  rw [slice_add] at stands
  obtain ⟨first, rest⟩ := List.append_inj stands (by simp)
  rw [slice_add] at first
  obtain ⟨header, payload⟩ := List.append_inj first (by simp)
  exact ⟨header, payload, by omega, by rw [Nat.add_assoc]; exact rest⟩

theorem skip_current (knows : it.Knows span) (small : it.current + 16 + span.payload.length < 2 ^ 32) :
    it.skip.current = it.current + 16 + span.payload.length := by
  have sizes : (16 + it.nextSize).toNat = 16 + span.payload.length := by
    rw [knows.size, UInt32.toNat_add, UInt32.toNat_ofNat']
    simp only [UInt32.reduceToNat, Nat.reducePow]
    omega
  simp only [skip, sizes, Nat.add_assoc]

theorem Reading.skip (reading : it.Reading mem (span :: spans)) (knows : it.Knows span) :
    it.skip.Reading mem spans := by
  obtain ⟨-, -, ends, stands⟩ := reading.parts
  have small := reading.small
  have current := skip_current knows (by omega)
  refine ⟨?_, ?_, small, fun other member => reading.inRange other (by simp [member])⟩
  · change slice (mem.data it.data).data it.skip.current
      (spans.flatMap (Span.encode it.adjustment)).length = spans.flatMap (Span.encode it.adjustment)
    rwa [current]
  · change it.skip.current + (spans.flatMap (Span.encode it.adjustment)).length = it.stop
    rwa [current]

theorem readNext_spec (reading : it.Reading mem (span :: spans)) :
    ∃ after, it.readNext mem = some after ∧ after.Knows span ∧ it.Same after ∧
      after.current = it.current := by
  obtain ⟨header, -, ends, -⟩ := reading.parts
  obtain ⟨⟨startLow, startHigh⟩, stopLow, stopHigh⟩ := reading.inRange span (by simp)
  rw [show 16 = 4 + (4 + (4 + 4)) from rfl, slice_add, Span.header] at header
  obtain ⟨first, header⟩ := List.append_inj header (by simp)
  rw [slice_add] at header
  obtain ⟨second, header⟩ := List.append_inj header (by simp)
  rw [slice_add] at header
  obtain ⟨third, fourth⟩ := List.append_inj header (by simp)
  refine ⟨{ it with
    nextTid := span.tid.toUInt32
    nextSize := UInt32.ofNat span.payload.length
    nextStart := span.start
    nextEnd := span.stop }, ?_, ⟨rfl, rfl, rfl, rfl⟩, ⟨rfl, rfl, rfl, rfl, rfl⟩, rfl⟩
  simp only [readNext, tagBuffer, Option.bind_eq_bind]
  rw [readU32_spec (by simp only; omega) first, Option.bind_some,
    readU32_spec (by simp only; omega) second, Option.bind_some,
    readU32_spec (by simp only; omega) third, Option.bind_some,
    readU32_spec (by simp only; omega) fourth, Option.bind_some]
  simp only [int32_toNat_ofInt, Int.sub_add_cancel, int32_eq startLow startHigh,
    int32_eq stopLow stopHigh, Option.pure_def]

/-- The iterator is at a span that it has read and that is not out of its bounds, or at its end. -/
def Ready (mem : Memory) (it : Iterator) : List Span → Prop
  | [] => it.Reading mem []
  | span :: spans => it.Reading mem (span :: spans) ∧ it.Knows span ∧
      span.Between it.offsetStart it.offsetEnd

theorem prepareForNext_spec (turns : ℕ) (reading : it.Reading mem spans)
    (enough : spans.length < turns) :
    ∃ after rest, it.prepareForNext mem turns = some after ∧ after.Ready mem rest ∧ it.Same after ∧
      rest.length ≤ spans.length ∧
      rest.filter (Span.Between it.offsetStart it.offsetEnd) =
        spans.filter (Span.Between it.offsetStart it.offsetEnd) := by
  induction turns generalizing it spans with
  | zero => omega
  | succ turns ih =>
      cases spans with
      | nil =>
          refine ⟨it, [], ?_, reading, ⟨rfl, rfl, rfl, rfl, rfl⟩, Nat.le_refl _, rfl⟩
          simp [prepareForNext, reading.not_hasNext]
      | cons span spans =>
          obtain ⟨read, found, knows, same, current⟩ := readNext_spec reading
          have again : read.Reading mem (span :: spans) := by
            refine ⟨?_, ?_, ?_, reading.inRange⟩
            · rw [same.data, same.adjustment, current]
              exact reading.stands
            · rw [same.adjustment, current, same.stop]
              exact reading.ends
            · rw [same.stop]
              exact reading.small
          simp only [prepareForNext, reading.hasNext, if_true, found, Option.bind_eq_bind,
            Option.bind_some, knows.start, knows.stop, same.offsetStart, same.offsetEnd]
          by_cases out : it.offsetEnd ≤ span.start ∨ span.stop ≤ it.offsetStart
          · rw [if_pos out]
            have skipped : it.Same read.skip :=
              same.trans ⟨rfl, rfl, rfl, rfl, rfl⟩
            obtain ⟨after, rest, prepared, ready, kept, shorter, filtered⟩ :=
              ih (again.skip knows) (Nat.lt_of_succ_lt_succ enough)
            rw [skipped.offsetStart, skipped.offsetEnd] at filtered
            refine ⟨after, rest, prepared, ready, skipped.trans kept, Nat.le_succ_of_le shorter, ?_⟩
            rw [filtered, List.filter_cons_of_neg (by
              rw [decide_eq_true_eq]
              exact not_not_intro out)]
          · rw [if_neg out]
            refine ⟨read, span :: spans, rfl, ⟨again, knows, ?_⟩, same, Nat.le_refl _, rfl⟩
            rwa [same.offsetStart, same.offsetEnd]

end Iterator

structure Item.Shows (mem : Memory) (item : Item) (low high : ℤ) (span : Span) : Prop where
  tid : item.tid = span.tid
  size : item.size = UInt32.ofNat span.payload.length
  start : item.start = max span.start low
  stop : item.stop = min span.stop high
  ordered : item.buf.current ≤ item.buf.stop
  payload : slice (mem.data item.buf.data).data item.buf.current
    (item.buf.stop - item.buf.current) = span.payload

theorem Item.Shows.kept {mem mem' : Memory} {item : Item} {low high : ℤ} {span : Span}
    {count : ℕ} (shows : item.Shows mem low high span) (inside : item.buf.stop ≤ count)
    (same : slice (mem'.data item.buf.data).data 0 count =
      slice (mem.data item.buf.data).data 0 count) : item.Shows mem' low high span := by
  refine ⟨shows.tid, shows.size, shows.start, shows.stop, shows.ordered, ?_⟩
  have ordered := shows.ordered
  have within := slice_within same item.buf.current (item.buf.stop - item.buf.current) (by omega)
  rw [Nat.zero_add] at within
  rw [within, shows.payload]

namespace Iterator

variable {mem : Memory} {it : Iterator} {span : Span} {spans : List Span}

theorem next_spec (ready : it.Ready mem (span :: spans)) :
    ∃ item after rest, it.next mem = some (item, after) ∧
      item.Shows mem it.offsetStart it.offsetEnd span ∧ item.buf.data = it.data ∧
      item.buf.stop ≤ it.stop ∧ after.Ready mem rest ∧ it.Same after ∧
      rest.length ≤ spans.length ∧
      rest.filter (Span.Between it.offsetStart it.offsetEnd) =
        spans.filter (Span.Between it.offsetStart it.offsetEnd) := by
  obtain ⟨reading, knows, -⟩ := ready
  obtain ⟨-, payload, ends, -⟩ := reading.parts
  have small := reading.small
  have current := skip_current knows (by omega)
  have skipped := reading.skip knows
  obtain ⟨after, rest, prepared, next, same, shorter, filtered⟩ :=
    prepareForNext_spec it.fuel skipped (by
      have length := skipped.length_le
      change it.skip.current + spans.length ≤ it.stop at length
      unfold fuel
      omega)
  have trimmed : ({ it.tagBuffer with current := it.current + 16 } : TagBuffer).trimAtEnd
      (it.stop - it.skip.current) =
        some ⟨it.data, it.current + 16, it.current + 16 + span.payload.length⟩ := by
    have stop : it.stop - (it.stop - it.skip.current) = it.current + 16 + span.payload.length := by
      omega
    rw [trimAtEnd_spec (by simp only [tagBuffer]; omega)]
    simp only [tagBuffer, stop]
  have tid : it.nextTid.toUInt16 = span.tid := by rw [knows.tid, UInt16.toUInt16_toUInt32]
  refine ⟨{
    tid := span.tid
    size := UInt32.ofNat span.payload.length
    start := max span.start it.offsetStart
    stop := min span.stop it.offsetEnd
    buf := ⟨it.data, it.current + 16, it.current + 16 + span.payload.length⟩ }, after, rest, ?_,
    ⟨rfl, rfl, rfl, rfl, Nat.le_add_right _ _, ?_⟩, rfl, ?_, next,
    ⟨same.data, same.stop, same.offsetStart, same.offsetEnd, same.adjustment⟩, shorter, filtered⟩
  · simp only [Iterator.next, guard_of reading.hasNext, trimmed, prepared, tid, knows.size,
      knows.start, knows.stop, Option.bind_eq_bind, Option.bind_some, Option.pure_def]
  · rw [Nat.add_sub_cancel_left]
    exact payload
  · simp only
    omega

theorem Ready.kept {mem' : Memory} (ready : it.Ready mem spans)
    (same : slice (mem'.data it.data).data 0 it.stop = slice (mem.data it.data).data 0 it.stop) :
    it.Ready mem' spans := by
  have carry : it.Reading mem spans → it.Reading mem' spans := by
    intro reading
    refine ⟨?_, reading.ends, reading.small, reading.inRange⟩
    have within := slice_within same it.current _ (Nat.le_of_eq reading.ends)
    rw [Nat.zero_add] at within
    rw [within, reading.stands]
  cases spans with
  | nil => exact carry ready
  | cons span spans => exact ⟨carry ready.1, ready.2⟩

theorem forEach_spec {State : Type} (memory : State → Memory) (body : Item → State → Option State)
    (inv : List Span → State → Prop) {low high : ℤ} {bytes : List UInt8} {data : ℕ}
    (keeps : ∀ span rest item state, inv (span :: rest) state →
      (∀ mem : Memory, slice (mem.data data).data 0 bytes.length = bytes →
        item.Shows mem low high span) →
        ∃ next, body item state = some next ∧ inv rest next ∧
          slice ((memory next).data data).data 0 bytes.length = bytes)
    {turns : ℕ} {state : State} (isData : it.data = data) (isStop : it.stop = bytes.length)
    (isLow : it.offsetStart = low) (isHigh : it.offsetEnd = high)
    (stands : slice ((memory state).data data).data 0 bytes.length = bytes)
    (ready : it.Ready (memory state) spans) (enough : spans.length < turns)
    (holds : inv (spans.filter (Span.Between low high)) state) :
    ∃ last, it.forEach memory body turns state = some last ∧ inv [] last := by
  induction turns generalizing it spans state with
  | zero => omega
  | succ turns ih =>
      cases spans with
      | nil =>
          refine ⟨state, ?_, holds⟩
          simp [forEach, Reading.not_hasNext ready]
      | cons span spans =>
          have reading := ready.1
          have between := ready.2.2
          obtain ⟨item, after, rest, found, shows, ofData, inside, next, same, shorter, filtered⟩ :=
            next_spec ready
          rw [isLow, isHigh] at shows filtered between
          rw [List.filter_cons_of_pos (by simpa using between), ← filtered] at holds
          obtain ⟨changed, done, later, kept⟩ := keeps span _ item state holds
            fun mem' unchanged => shows.kept (by omega) (by
              rw [ofData, isData, isStop, unchanged, stands])
          have again : after.Ready (memory changed) rest := by
            apply next.kept
            rw [same.data, same.stop, isData, isStop, kept, stands]
          obtain ⟨last, ended, reached⟩ := ih (same.data.trans isData) (same.stop.trans isStop)
            (same.offsetStart.trans isLow) (same.offsetEnd.trans isHigh) kept again
            (by simp only [List.length_cons] at enough; omega) later
          refine ⟨last, ?_, reached⟩
          simp only [forEach, reading.hasNext, if_true, found, done, ended, Option.bind_eq_bind,
            Option.bind_some]

end Iterator

end FISim.ByteTags
