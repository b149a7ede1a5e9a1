import FISim.ByteTags.Storage

/-!
Adding a tag to a list: in place behind the tags of the list, or in a block of
its own that the tags are copied to.
-/

namespace FISim.ByteTags

open Cells SharedLogs

namespace ByteTagList

def logs (list : ByteTagList) : List Log :=
  match list.data with
  | none => []
  | some data => [⟨data, list.used⟩]

def bytes (mem : Memory) (list : ByteTagList) : List UInt8 :=
  match list.data with
  | none => []
  | some data => slice (mem.data data).data 0 list.used

variable {mem mem' : Memory} {list : ByteTagList} {others : List Log}

theorem bytes_kept (kept : mem.Kept mem' list.logs) : list.bytes mem' = list.bytes mem := by
  unfold bytes
  unfold logs at kept
  split
  · rfl
  · rename_i data found
    rw [found] at kept
    exact kept ⟨data, list.used⟩ (by simp)

/-- The block after the values have been written behind the place and the mark has been set. -/
def written (place : ℕ) (values : List UInt8) (block : Block UInt8) : Block UInt8 :=
  { block with dirty := place + values.length, data := patch block.data place values }

theorem reserve_spec (holds : mem.Holds (list.logs ++ others))
    (empty : list.data = none → list.used = 0) (spaceNeeded : ℕ) :
    ∃ made data, list.reserve mem spaceNeeded = (made, data) ∧
      ∀ values : List UInt8, list.used + values.length ≤ spaceNeeded →
        (made.modify data (written list.used values)).Holds
          (⟨data, list.used + values.length⟩ :: others) ∧
        slice ((made.modify data (written list.used values)).data data).data 0
          (list.used + values.length) = list.bytes mem ++ values ∧
        mem.Kept (made.modify data (written list.used values)) others := by
  unfold reserve bytes
  unfold logs at holds
  cases isData : list.data with
  | none =>
      simp only [isData, List.nil_append] at holds ⊢
      obtain ⟨made, data, allocated, holdsMade, kept, enough, once, -⟩ := holds.allocate spaceNeeded
      refine ⟨made, data, allocated, ?_⟩
      rw [empty isData]
      intro values room
      obtain ⟨held, contents, stays⟩ := holdsMade.continues
        (made.modify data (written 0 values)) values rfl rfl
        ⟨.inl once, by simp only; omega, by simp [written], by simp [written], by simp [written],
          by simp [written], fun other different => Memory.modify_of_ne different _⟩
      exact ⟨held, contents, kept.trans stays⟩
  | some block =>
      simp only [isData, List.singleton_append] at holds ⊢
      split
      · obtain ⟨made, data, allocated, holdsMade, kept, enough, once, apart⟩ :=
          holds.allocate spaceNeeded
        have different : block ≠ data := apart ⟨block, list.used⟩ List.mem_cons_self
        have same : slice (made.data block).data 0 list.used =
            slice (mem.data block).data 0 list.used := kept ⟨block, list.used⟩ List.mem_cons_self
        rw [allocated]
        refine ⟨_, _, rfl, ?_⟩
        intro values room
        obtain ⟨held, contents, stays⟩ := holdsMade.continues
          (made.modify data (written 0 (slice (mem.data block).data 0 list.used ++ values)))
          (slice (mem.data block).data 0 list.used ++ values) rfl rfl
          ⟨.inl once, by simp; omega, by simp [written], by simp [written], by simp [written],
            by simp [written], fun other different => Memory.modify_of_ne different _⟩
        -- The copied bytes and the values are written to the new block as one.
        have joined : ((made.modify data fun data =>
            { data with data := patch data.data 0 (slice (made.data block).data 0 list.used) }
            ).deallocate (some block)).modify data (written list.used values) =
              (made.modify data (written 0 (slice (mem.data block).data 0 list.used ++ values))
                ).deallocate (some block) := by
          rw [← Memory.deallocate_modify different, Memory.modify_modify, same]
          congr 2
          funext block'
          have patches : _ = patch block'.data 0 (slice (mem.data block).data 0 list.used ++ values) :=
            patch_append
          rw [slice_length, Nat.zero_add] at patches
          simp only [written, patches, List.length_append, slice_length, Nat.zero_add]
        rw [joined]
        obtain ⟨released, rest⟩ := (held.perm (List.Perm.swap _ _ _)).deallocate
        have length : (slice (mem.data block).data 0 list.used ++ values).length =
            list.used + values.length := by simp
        have stood := (rest [⟨data, list.used + values.length⟩]) _ List.mem_cons_self
        simp only [Log.after, Nat.zero_add, length] at released contents
        refine ⟨released, ?_, ?_⟩
        · refine stood.trans (contents.trans ?_)
          simp [Log.contents, slice]
        · exact (kept.subset (List.subset_cons_self _ _)).trans
            ((stays.subset (List.subset_cons_self _ _)).trans (rest others))
      · rename_i inPlace
        rw [not_or, not_and_or, not_not, not_not] at inPlace
        refine ⟨mem, block, rfl, ?_⟩
        intro values room
        obtain ⟨held, contents, stays⟩ := holds.continues
          (mem.modify block (written list.used values)) values rfl rfl
          ⟨inPlace.2, by simp only; omega, by simp [written], by simp [written], by simp [written],
            by simp [written], fun other different => Memory.modify_of_ne different _⟩
        exact ⟨held, contents, stays⟩

theorem write_spec {tag : TagBuffer} {buffer : List UInt8}
    (inside : tag.current + buffer.length ≤ tag.stop) :
    tag.write mem buffer = some (mem.modify tag.data fun data =>
      { data with data := patch data.data tag.current buffer },
        { tag with current := tag.current + buffer.length }) := by
  simp only [TagBuffer.write, guard_of inside, Option.pure_def, Option.bind_eq_bind,
    Option.bind_some]

def extended (list : ByteTagList) (data : ℕ) (span : Span) : ByteTagList where
  minStart := min list.minStart (span.start - list.adjustment)
  maxEnd := max list.maxEnd (span.stop - list.adjustment)
  adjustment := list.adjustment
  used := list.used + 16 + span.payload.length
  data := some data

/-- Room for the bytes of a tag is left, and its offsets can be stored. -/
structure Takes (list : ByteTagList) (span : Span) : Prop where
  room : list.used + 16 + span.payload.length < 2 ^ 32
  inRange : (span.shift (-list.adjustment)).InRange

theorem add_spec (span : Span) (holds : mem.Holds (list.logs ++ others))
    (empty : list.data = none → list.used = 0) (takes : list.Takes span) :
    ∃ made data, list.add mem span.tid (UInt32.ofNat span.payload.length) span.start span.stop =
        some (made, list.extended data span,
          ⟨data, list.used + 16, list.used + 16 + span.payload.length⟩) ∧
      mem.Kept made others ∧
      ∃ filled, TagBuffer.write made ⟨data, list.used + 16, list.used + 16 + span.payload.length⟩
          span.payload = some (filled,
            ⟨data, list.used + 16 + span.payload.length, list.used + 16 + span.payload.length⟩) ∧
        filled.Holds ((list.extended data span).logs ++ others) ∧
        (list.extended data span).bytes filled = list.bytes mem ++ span.encode list.adjustment ∧
        mem.Kept filled others := by
  have room := takes.room
  obtain ⟨⟨startLow, startHigh⟩, stopLow, stopHigh⟩ := takes.inRange
  simp only [Span.shift, ← sub_eq_add_neg] at startLow startHigh stopLow stopHigh
  have space : (UInt32.ofNat list.used + UInt32.ofNat span.payload.length + 4 + 4 + 4 + 4).toNat =
      list.used + 16 + span.payload.length := by
    simp only [UInt32.toNat_add, UInt32.toNat_ofNat', UInt32.reduceToNat]
    omega
  have place : (if list.data = none then 0 else list.used) = list.used := by
    split
    · rename_i isNone
      exact (empty isNone).symm
    · rfl
  obtain ⟨made, data, reserved, goesOn⟩ := reserve_spec holds empty
    (list.used + 16 + span.payload.length)
  have headed : list.add mem span.tid (UInt32.ofNat span.payload.length) span.start span.stop =
      some (made.modify data fun block => { block with
        dirty := list.used + 16 + span.payload.length
        data := patch block.data list.used (span.header list.adjustment) },
        list.extended data span,
        ⟨data, list.used + 16, list.used + 16 + span.payload.length⟩) := by
    simp only [add, space, guard_of (show list.used ≤ list.used + 16 + span.payload.length by omega),
      reserved, place, TagBuffer.writeU32, Option.bind_eq_bind, Option.bind_some,
      int32_eq startLow startHigh, int32_eq stopLow stopHigh]
    rw [write_spec (by simp only [FISim.TagBuffer.writeU32_length]; omega), Option.bind_some,
      write_spec (by simp only [FISim.TagBuffer.writeU32_length]; omega), Option.bind_some,
      write_spec (by simp only [FISim.TagBuffer.writeU32_length]; omega), Option.bind_some,
      write_spec (by simp only [FISim.TagBuffer.writeU32_length]; omega), Option.bind_some]
    simp only [FISim.TagBuffer.writeU32_length, Memory.modify_modify]
    have least : (if span.start - list.adjustment < list.minStart then
        span.start - list.adjustment else list.minStart) =
          min list.minStart (span.start - list.adjustment) := by
      split <;> omega
    have most : (if list.maxEnd < span.stop - list.adjustment then
        span.stop - list.adjustment else list.maxEnd) =
          max list.maxEnd (span.stop - list.adjustment) := by
      split <;> omega
    simp only [least, most, Span.header, ← patch_append, FISim.TagBuffer.writeU32_length]
    rfl
  have filling : ∀ payload : List UInt8, payload.length = span.payload.length →
      ((made.modify data fun block => { block with
        dirty := list.used + 16 + span.payload.length
        data := patch block.data list.used (span.header list.adjustment) }).modify data
          fun block => { block with data := patch block.data (list.used + 16) payload }) =
        made.modify data (written list.used (span.header list.adjustment ++ payload)) := by
    intro payload same
    rw [Memory.modify_modify]
    congr 1
    funext block
    have patches : _ = patch block.data list.used (span.header list.adjustment ++ payload) :=
      patch_append
    rw [Span.header_length] at patches
    simp only [written, patches, List.length_append, Span.header_length, same, Nat.add_assoc]
  refine ⟨_, data, headed, ?_, _, write_spec (Nat.le_refl _), ?_⟩
  · -- What stands where the tag's bytes will be may as well have been written there.
    obtain ⟨-, -, kept⟩ := goesOn (span.header list.adjustment ++ slice
      (patch (made.data data).data list.used (span.header list.adjustment)) (list.used + 16)
        span.payload.length) (by simp; omega)
    rw [← filling _ (by simp)] at kept
    refine kept.trans (Memory.Kept.of_data ?_)
    intro address
    by_cases here : address = data
    · subst here
      simp
    · simp only [Memory.modify_of_ne here]
  · obtain ⟨held, contents, kept⟩ := goesOn (span.header list.adjustment ++ span.payload)
      (by simp; omega)
    rw [← filling _ rfl] at held contents kept
    simp only [List.length_append, Span.header_length, ← Nat.add_assoc] at held contents
    exact ⟨held, contents, kept⟩

end ByteTagList

end FISim.ByteTags
