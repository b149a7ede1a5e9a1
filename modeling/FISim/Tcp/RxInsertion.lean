import FISim.Tcp.Receiver

/-!
What `Add` does with what is left of a segment: it is stored among the pieces, reported in the SACK
list, and the next expected byte moves behind it.
-/

namespace FISim.Tcp

open Pieces SequenceNumber32 TcpRxBuffer

variable {start : SequenceNumber32} {stream : List UInt8}

/-- A place of the stream on its own. -/
def slice (stream : List UInt8) (first stop : ℕ) : Piece :=
  ((stream.drop first).take (stop - first), first)

theorem slice_length {first stop : ℕ} (inside : stop ≤ stream.length) :
    (slice stream first stop).1.length = stop - first := by
  rw [slice, List.length_take, List.length_drop]
  omega

theorem slice_finish {first stop : ℕ} (order : first ≤ stop) (inside : stop ≤ stream.length) :
    finish (slice stream first stop) = stop := by
  rw [finish, slice_length inside]
  change first + (stop - first) = stop
  omega

theorem slice_piece {first stop : ℕ} (order : first ≤ stop) (inside : stop ≤ stream.length) :
    IsPiece stream (slice stream first stop).1 first :=
  isPiece_cut (by omega)

/-- The pieces that are held once the part that is left is stored among those that are kept. -/
structure Joined (stream : List UInt8) (low next head tail : ℕ) (pieces joined : List Piece) :
    Prop where
  chained : Chained low joined
  below : Below (low + 2 ^ 31) joined
  right : ∀ piece ∈ joined, IsPiece stream piece.1 piece.2
  stored : ∀ place, Stored joined place ↔ Stored pieces place ∨ head ≤ place ∧ place < tail
  closed : ∀ piece ∈ joined, piece.2 < next → finish piece ≤ next
  ends : ∀ piece ∈ joined, piece ∈ pieces ∨ finish piece ≤ tail

section Joins

variable {low next head tail first stop : ℕ} {pieces kept : List Piece} {buffer : TcpRxBuffer}
  {left : UInt32} (held : Held start stream low next pieces buffer) (isOpen : ¬ Stored pieces next)
  (nextHead : next ≤ head) (tailHigh : tail < low + 2 ^ 31) (inside : tail ≤ stream.length)
  (trimmed : TcpRxBuffer.Trimmed pieces buffer.size head tail kept left first stop)

include held isOpen nextHead tailHigh inside trimmed

theorem joined_slice :
    Joined stream low next head tail pieces (insertPiece (slice stream first stop) kept) := by
  have order := held.order
  have firstHead := trimmed.head_le
  have some_left := trimmed.some_left
  have stopTail := trimmed.le_tail
  have sliceEnd : finish (slice stream first stop) = stop := slice_finish (by omega) (by omega)
  have sliceLength : (slice stream first stop).1.length = stop - first := slice_length (by omega)
  have members : ∀ piece, piece ∈ insertPiece (slice stream first stop) kept →
      piece = slice stream first stop ∨ piece ∈ pieces := by
    intro piece member
    rcases List.mem_cons.mp ((insertPiece_perm _ _).mem_iff.mp member) with same | stays
    · exact Or.inl same
    · exact Or.inr (trimmed.sublist.subset stays)
  constructor
  · refine chained_insertPiece (Chained.sublist trimmed.sublist held.chained) ?_ ?_ ?_
    · change low ≤ first
      omega
    · omega
    · rw [sliceEnd]
      exact trimmed.apart
  · intro piece member
    rcases members piece member with rfl | stays
    · omega
    · exact held.below piece stays
  · intro piece member
    rcases members piece member with rfl | stays
    · exact slice_piece (by omega) (by omega)
    · exact held.right piece stays
  · intro place
    have contains : Contains (slice stream first stop) place ↔ first ≤ place ∧ place < stop := by
      rw [Contains, sliceEnd]
      rfl
    rw [stored_insertPiece, contains]
    constructor
    · rintro (⟨lower, upper⟩ | ⟨piece, stays, within⟩)
      · exact Or.inr ⟨by omega, by omega⟩
      · exact Or.inl ⟨piece, trimmed.sublist.subset stays, within⟩
    · rintro (stored | ⟨lower, upper⟩)
      · exact (trimmed.replaces place stored).symm
      · exact trimmed.covers place lower upper
  · intro piece member early
    rcases members piece member with rfl | stays
    · change first < next at early
      omega
    · by_contra beyond
      exact isOpen ⟨piece, stays, by omega, by omega⟩
  · intro piece member
    rcases members piece member with rfl | stays
    · rw [sliceEnd]
      exact Or.inr stopTail
    · exact Or.inl stays

theorem open_slice (later : next < first) :
    ¬ Stored (insertPiece (slice stream first stop) kept) next := by
  have joins := joined_slice held isOpen nextHead tailHigh inside trimmed
  intro known
  rcases (joins.stored next).mp known with stored | ⟨lower, upper⟩
  · exact isOpen stored
  · rcases trimmed.covers next lower upper with ⟨here, -⟩ | ⟨piece, isKept, contains⟩
    · omega
    · exact isOpen ⟨piece, trimmed.sublist.subset isKept, contains⟩

theorem size_joined :
    (left + getSize (slice stream first stop).1).toNat =
      total (insertPiece (slice stream first stop) kept) := by
  have joins := joined_slice held isOpen nextHead tailHigh inside trimmed
  have order := held.order
  have firstHead := trimmed.head_le
  have stopTail := trimmed.le_tail
  have removed := trimmed.size
  have size := held.size
  have most := joins.chained.total_le joins.below (Nat.le_add_right _ _)
  have length : (slice stream first stop).1.length = stop - first := slice_length (by omega)
  rw [total_insertPiece] at most ⊢
  rw [UInt32.toNat_add, getSize_toNat (by omega), Nat.mod_eq_of_lt (by omega)]
  omega

omit isOpen inside in
theorem store_slice :
    ¬ (numbered start kept).any (fun i => i.1 = start.ofPlace first) = true ∧
      RxData.store (start.ofPlace first) (slice stream first stop).1 (numbered start kept) =
        numbered start (insertPiece (slice stream first stop) kept) := by
  have order := held.order
  have firstHead := trimmed.head_le
  have some_left := trimmed.some_left
  have stopTail := trimmed.le_tail
  have keptChained := Chained.sublist trimmed.sublist held.chained
  have keptBelow : Below (low + 2 ^ 31) kept :=
    fun piece member => held.below piece (trimmed.sublist.subset member)
  have free : ∀ other ∈ kept, other.2 ≠ first := by
    intro other member
    have positive := (keptChained.mem member).2
    rcases trimmed.apart other member with before | behind
    · rw [finish] at before
      omega
    · omega
  constructor
  · rw [not_any_numbered keptChained keptBelow (by omega) (by omega) free]
    exact Bool.false_ne_true
  · exact store_numbered (slice stream first stop) keptChained keptBelow
      (show low ≤ first by omega) (show first < low + 2 ^ 31 by omega) free

end Joins

/-- Blocks of the list that `GetSackList` gives: they lie beyond the next expected byte. -/
def Beyond (low next : ℕ) (pieces : List Piece) (block : ℕ × ℕ) : Prop :=
  Block low (fun place => next < place ∧ Stored pieces place) block

theorem Beyond.mono {low next : ℕ} {pieces joined : List Piece} {block : ℕ × ℕ}
    (beyond : Beyond low next pieces block)
    (grows : ∀ place, Stored pieces place → Stored joined place) :
    Beyond low next joined block := by
  constructor
  · exact beyond.above
  · exact beyond.order
  · exact beyond.below
  · intro place lower upper
    obtain ⟨later, stored⟩ := beyond.inside place lower upper
    exact ⟨later, grows place stored⟩

theorem Beyond.advance {low next reached : ℕ} {pieces : List Piece} {block : ℕ × ℕ}
    (beyond : Beyond low next pieces block) (isOpen : ¬ Stored pieces reached)
    (order : next ≤ reached) (stays : next < reached → reached < block.2) :
    Beyond low reached pieces block := by
  have later : reached < block.1 := by
    by_contra before
    have first := (beyond.inside block.1 (Nat.le_refl _) beyond.order).1
    have within := beyond.inside reached (by omega) (stays (by omega))
    exact isOpen within.2
  constructor
  · exact beyond.above
  · exact beyond.order
  · exact beyond.below
  · intro place lower upper
    exact ⟨by omega, (beyond.inside place lower upper).2⟩

/-- At most four blocks, and no place in two of them. -/
structure Separate (blocks : List (ℕ × ℕ)) : Prop where
  few : blocks.length ≤ 4
  apart : blocks.Pairwise Apart

theorem Separate.sublist {blocks fewer : List (ℕ × ℕ)} (separate : Separate blocks)
    (sublist : fewer.Sublist blocks) : Separate fewer :=
  ⟨sublist.length_le.trans separate.few, separate.apart.sublist sublist⟩

/-- What is stored out of order is in the first block of the list, and the blocks are separate if
they were and what is stored is in none of them. -/
structure Lists (next : ℕ) (stored : ℕ × ℕ) (blocks listed : List (ℕ × ℕ)) : Prop where
  first : next < stored.1 →
    ∃ block rest, listed = block :: rest ∧ block.1 ≤ stored.1 ∧ stored.2 ≤ block.2
  separate : Separate blocks → (next < stored.1 → ∀ block ∈ blocks, Apart stored block) →
    Separate listed

theorem report_spec {low next first stop : ℕ} {joined : List Piece} {blocks : List (ℕ × ℕ)}
    (buffer : TcpRxBuffer) (expects : buffer.nextRxSeq = start.ofPlace next)
    (sacks : buffer.sackList = blocks.map (numberBlock start))
    (areBlocks : ∀ block ∈ blocks, Beyond low next joined block) (order : low ≤ next)
    (near : next < low + 2 ^ 31) (above : low ≤ first) (some_left : first < stop)
    (high : stop < low + 2 ^ 31)
    (stored : ∀ place, first ≤ place → place < stop → Stored joined place) :
    ∃ reported : List (ℕ × ℕ),
      buffer.reportSack (start.ofPlace first) (start.ofPlace stop) =
        some { buffer with sackList := reported.map (numberBlock start) } ∧
      (∀ block ∈ reported, Beyond low next joined block) ∧
      Lists next (first, stop) blocks reported := by
  have later := ofPlace_greater start (show first < next + 2 ^ 31 by omega) (by omega)
  rw [← expects] at later
  by_cases isLater : next < first
  · have isBlock : Beyond low next joined (first, stop) := by
      constructor
      · exact above
      · exact some_left
      · exact high
      · intro place lower upper
        change first ≤ place at lower
        exact ⟨by omega, stored place lower upper⟩
    obtain ⟨merged, rest, merges, mergedBlocks, lower, upper, few, apart⟩ :=
      mergeBlocks_spec start (blocks.length + 1) isBlock areBlocks (Nat.lt_succ_self _)
    have looped : mergeBlocks (start.ofPlace first, start.ofPlace stop)
        (buffer.sackList.length + 1) buffer.sackList =
          some ((merged :: rest).map (numberBlock start)) := by
      rw [sacks, List.length_map]
      exact merges
    have separate : Separate blocks → (∀ block ∈ blocks, Apart (first, stop) block) →
        (merged :: rest).Pairwise Apart :=
      fun separate alone => apart (List.pairwise_cons.mpr ⟨alone, separate.apart⟩)
    rw [reportSack, if_pos (later.mpr isLater), updateSackList, if_pos (later.mpr isLater), looped]
    by_cases many : ((merged :: rest).map (numberBlock start)).length > 4
    · refine ⟨(merged :: rest).dropLast, ?_, ?_, ?_, ?_⟩
      · simp only [Option.bind_eq_bind, Option.bind_some, if_pos many, List.map_dropLast]
        rfl
      · exact fun block member => mergedBlocks block (List.dropLast_subset _ member)
      · intro _
        cases rest with
        | nil => simp at many
        | cons second others => exact ⟨merged, _, rfl, lower, upper⟩
      · intro known alone
        have length := known.few
        refine ⟨?_, (separate known (alone isLater)).sublist (List.dropLast_sublist _)⟩
        rw [List.length_dropLast, List.length_cons]
        omega
    · refine ⟨merged :: rest, ?_, mergedBlocks, fun _ => ⟨merged, rest, rfl, lower, upper⟩, ?_⟩
      · simp only [Option.bind_eq_bind, Option.bind_some, if_neg many]
        rfl
      · intro known alone
        rw [List.length_map] at many
        exact ⟨Nat.le_of_not_lt many, separate known (alone isLater)⟩
  · refine ⟨blocks, ?_, areBlocks, fun other => absurd other isLater, fun known _ => known⟩
    rw [reportSack, if_neg (later.not.mpr isLater), ← sacks]

/-- The receiver holds what it was offered and has not handed out, and its numbers say so. -/
structure Inv (start : SequenceNumber32) (stream : List UInt8) (receiver : Receiver) (next : ℕ)
    (pieces : List Piece) (blocks : List (ℕ × ℕ)) : Prop where
  held : Held start stream receiver.extracted.length next pieces receiver.buffer
  extracted : receiver.extracted <+: stream
  isOpen : ¬ Stored pieces next
  expects : receiver.buffer.nextRxSeq =
    start.ofPlace (counted receiver.buffer.gotFin stream.length next)
  fin : receiver.buffer.gotFin = true →
    receiver.buffer.finSeq = start.ofPlace stream.length ∧ stream.length < next + 2 ^ 32
  ends : ∀ piece ∈ pieces, finish piece = stream.length →
    stream.length + 1 < receiver.extracted.length + 2 ^ 31
  known : ∀ place, Received receiver.received place ↔
    place < receiver.extracted.length ∨ Stored pieces place
  sacks : receiver.buffer.sackList = blocks.map (numberBlock start)
  beyond : ∀ block ∈ blocks, Beyond receiver.extracted.length next pieces block

theorem inv_initial (maxBuffer : UInt32) : Inv start stream (initial start maxBuffer) 0 [] [] := by
  constructor
  · constructor <;> simp [initial, Chained, Below]
  · exact List.nil_prefix
  · exact stored_nil 0
  · simp [initial, counted]
  · intro got
    simp [initial] at got
  · simp
  · simp [initial, Received]
  · rfl
  · simp

theorem slice_slice {place count first stop : ℕ} (lower : place ≤ first) (order : first ≤ stop)
    (upper : stop ≤ place + count) :
    ((((stream.drop place).take count).drop (first - place)).take (stop - first)) =
      (slice stream first stop).1 := by
  rw [slice, List.drop_take, List.drop_drop, List.take_take, Nat.add_sub_cancel' lower,
    Nat.min_eq_left (by omega)]
variable (start) in
theorem fragment_slice {place count first stop : ℕ} (lower : place ≤ first)
    (some_left : first < stop) (upper : stop ≤ place + count)
    (inside : place + count ≤ stream.length) (short : count < 2 ^ 32) :
    createFragment ((stream.drop place).take count)
        ((start.ofPlace first).minus (start.ofPlace place)).toUInt32
        ((start.ofPlace stop).minus (start.ofPlace first)).toUInt32 =
      some (slice stream first stop).1 := by
  have length : ((stream.drop place).take count).length = count := by
    rw [List.length_take, List.length_drop]
    omega
  have offset := ofPlace_minus start lower (by omega)
  have size := ofPlace_minus start some_left.le (by omega)
  rw [createFragment_eq, offset, size, slice_slice lower some_left.le upper]
  · rw [offset, size, length]
    omega
  · omega

variable (start) in
theorem size_slice {first stop : ℕ} (some_left : first < stop) (inside : stop ≤ stream.length)
    (short : stop < first + 2 ^ 32) :
    ((start.ofPlace stop).minus (start.ofPlace first)).toUInt32 =
      getSize (slice stream first stop).1 := by
  have length : (slice stream first stop).1.length = stop - first := slice_length inside
  rw [← UInt32.toNat_inj, ofPlace_minus start some_left.le (by omega), getSize_toNat (by omega),
    length]

theorem countFin_eq (buffer : TcpRxBuffer) (stop : ℕ) {reached : ℕ}
    (expects : buffer.nextRxSeq = start.ofPlace reached)
    (finds : buffer.gotFin = true →
      buffer.finSeq = start.ofPlace stop ∧ reached < stop + 2 ^ 32 ∧ stop < reached + 2 ^ 32) :
    buffer.countFin =
      { buffer with nextRxSeq := start.ofPlace (counted buffer.gotFin stop reached) } := by
  rw [countFin, counted]
  by_cases got : buffer.gotFin = true
  · obtain ⟨fin, near, away⟩ := finds got
    have same := ofPlace_inj start near away
    by_cases ended : reached = stop
    · simp [got, expects, fin, ended, ofPlace_next]
    · have differs : ¬ start.ofPlace reached = buffer.finSeq := by rw [fin, same]; exact ended
      rw [if_neg (by simp [expects, differs]), if_neg (by simp [ended]), ← expects]
  · rw [if_neg (by simp [got]), if_neg (by simp [got]), ← expects]

theorem Joined.held {low next head tail reached : ℕ} {pieces joined : List Piece}
    {blocks final : List (ℕ × ℕ)} {buffer : TcpRxBuffer} {size : UInt32} {nextRxSeq : SequenceNumber32}
    (joins : Joined stream low next head tail pieces joined)
    (held : Held start stream low next pieces buffer)
    (advanced : Advanced low next joined blocks reached final) (sized : size.toNat = total joined)
    {sackList : List SackBlock} :
    Held start stream low reached joined { buffer with
      nextRxSeq
      data := numbered start joined
      size
      availBytes := buffer.availBytes + UInt32.ofNat (reached - next)
      sackList } := by
  have order := held.order
  have further := advanced.further
  have high := advanced.high
  constructor
  · rfl
  · exact joins.chained
  · exact joins.below
  · exact joins.right
  · exact sized
  · omega
  · intro byte lower upper
    by_cases early : byte < next
    · exact (joins.stored byte).mpr (Or.inl (held.covered byte lower early))
    · exact advanced.covers byte (by omega) upper
  · have avail := held.avail
    change (buffer.availBytes + UInt32.ofNat (reached - next)).toNat = _
    rw [UInt32.toNat_add, UInt32.toNat_ofNat', avail, Nat.add_mod_mod, Nat.mod_eq_of_lt (by omega)]
    omega

theorem TcpRxBuffer.Advanced.unmoved {low next reached : ℕ} {pieces : List Piece} {blocks left : List (ℕ × ℕ)}
    (advanced : Advanced low next pieces blocks reached left) (isOpen : ¬ Stored pieces next) :
    reached = next := by
  refine Nat.le_antisymm (Nat.le_of_not_lt fun moved => ?_) advanced.further
  exact isOpen (advanced.covers next (Nat.le_refl next) moved)

theorem Lists.advanced {low next reached : ℕ} {stored : ℕ × ℕ} {joined : List Piece}
    {blocks listed left : List (ℕ × ℕ)} (lists : Lists next stored blocks listed)
    (moves : Advanced low next joined listed reached left)
    (isOpen : next < stored.1 → ¬ Stored joined next) : Lists next stored blocks left where
  first later := by
    rw [moves.stays (moves.unmoved (isOpen later))]
    exact lists.first later
  separate known alone := (lists.separate known alone).sublist moves.fewer

section Inserts

variable {receiver : Receiver} {next place head tail : ℕ} {pieces joined : List Piece}
  {blocks : List (ℕ × ℕ)} (inv : Inv start stream receiver next pieces blocks)
  (placeHead : place ≤ head) (between : head ≤ max place next)
  (joins : Joined stream receiver.extracted.length next head tail pieces joined)

include inv placeHead between joins

theorem Inv.received_joined (byte : ℕ) :
    Received ((place, tail) :: receiver.received) byte ↔
      byte < receiver.extracted.length ∨ Stored joined byte := by
  rw [received_cons, inv.known, joins.stored]
  constructor
  · rintro (⟨lower, upper⟩ | before | stored)
    · by_cases early : byte < head
      · by_cases past : byte < receiver.extracted.length
        · exact Or.inl past
        · exact Or.inr (Or.inl (inv.held.covered byte (by omega) (by omega)))
      · exact Or.inr (Or.inr ⟨by omega, upper⟩)
    · exact Or.inl before
    · exact Or.inr (Or.inl stored)
  · rintro (before | stored | ⟨lower, upper⟩)
    · exact Or.inr (Or.inl before)
    · exact Or.inr (Or.inr stored)
    · exact Or.inl ⟨by omega, upper⟩

theorem Inv.inserted {reached : ℕ} {reported final : List (ℕ × ℕ)} {size : UInt32}
    (inside : tail ≤ stream.length)
    (tailHigh : counted true stream.length tail < receiver.extracted.length + 2 ^ 31)
    (advanced : Advanced receiver.extracted.length next joined reported reached final)
    (reportedBlocks : ∀ block ∈ reported, Beyond receiver.extracted.length next joined block)
    (sized : size.toNat = total joined) :
    Inv start stream { receiver with
      buffer := { receiver.buffer with
        nextRxSeq := start.ofPlace (counted receiver.buffer.gotFin stream.length reached)
        data := numbered start joined
        size
        availBytes := receiver.buffer.availBytes + UInt32.ofNat (reached - next)
        sackList := final.map (numberBlock start) }
      received := (place, tail) :: receiver.received } reached joined final := by
  have further := advanced.further
  constructor
  · exact joins.held inv.held advanced sized
  · exact inv.extracted
  · exact advanced.stops
  · rfl
  · intro got
    obtain ⟨fin, away⟩ := inv.fin got
    exact ⟨fin, by omega⟩
  · intro piece member ended
    rcases joins.ends piece member with stays | upper
    · exact inv.ends piece stays ended
    · have last : tail = stream.length := by omega
      rw [last, counted, if_pos ⟨rfl, rfl⟩] at tailHigh
      exact tailHigh
  · exact inv.received_joined placeHead between joins
  · rfl
  · intro block member
    exact (reportedBlocks block (advanced.fewer.subset member)).advance advanced.stops further
      (advanced.beyond block member)

end Inserts

theorem insert_spec {receiver : Receiver} {next place count head tail first stop : ℕ}
    {pieces kept : List Piece} {blocks : List (ℕ × ℕ)} {left : UInt32}
    (inv : Inv start stream receiver next pieces blocks)
    (uncounted : receiver.buffer.nextRxSeq = start.ofPlace next)
    (inside : place + count ≤ stream.length) (short : count < 2 ^ 32) (placeHead : place ≤ head)
    (nextHead : next ≤ head) (between : head ≤ max place next) (tailEnd : tail ≤ place + count)
    (tailHigh : counted true stream.length tail < receiver.extracted.length + 2 ^ 31)
    (trimmed : Trimmed pieces receiver.buffer.size head tail kept left first stop) :
    ∃ buffer reached joined reported,
      receiver.buffer.insert ((stream.drop place).take count) (start.ofPlace place)
        { data := numbered start kept, size := left, headSeq := start.ofPlace first,
          tailSeq := start.ofPlace stop } = some buffer ∧
      Inv start stream { receiver with
        buffer, received := (place, tail) :: receiver.received } reached joined reported ∧
      buffer.data = numbered start (insertPiece (slice stream first stop) kept) ∧
      Lists next (first, stop) blocks reported := by
  have held := inv.held
  have order := held.order
  have near := held.near
  have tailBelow := Nat.lt_of_le_of_lt (le_counted true stream.length tail) tailHigh
  have firstHead := trimmed.head_le
  have some_left := trimmed.some_left
  have stopTail := trimmed.le_tail
  have above : receiver.extracted.length ≤ first := by omega
  have joins := joined_slice held inv.isOpen nextHead tailBelow (by omega) trimmed
  have isOpen := open_slice held inv.isOpen nextHead tailBelow (by omega) trimmed
  obtain ⟨fresh, stores⟩ := store_slice held nextHead tailBelow trimmed
  have sizes := size_joined held inv.isOpen nextHead tailBelow (by omega) trimmed
  have fragment := fragment_slice start (placeHead.trans firstHead) some_left
    (stopTail.trans tailEnd) inside short
  have asserted := size_slice start some_left (show stop ≤ stream.length by omega)
    (by omega)
  generalize insertPiece (slice stream first stop) kept = joined at joins isOpen stores sizes
  obtain ⟨reported, reports, reportedBlocks, lists⟩ :=
    report_spec { receiver.buffer with data := numbered start joined } uncounted inv.sacks
      (fun block member => (inv.beyond block member).mono fun place stored =>
        (joins.stored place).mpr (Or.inl stored)) order near above some_left (by omega)
      fun place lower upper => (joins.stored place).mpr (Or.inr ⟨by omega, by omega⟩)
  obtain ⟨reached, final, moves, advanced⟩ :=
    advance_spec start { receiver.buffer with
      data := numbered start joined
      sackList := reported.map (numberBlock start)
      size := left + getSize (slice stream first stop).1 } joins.chained joins.below (Nat.le_refl _)
      order near joins.closed uncounted rfl reportedBlocks
  have now := inv.inserted placeHead between joins (by omega) tailHigh advanced reportedBlocks sizes
  have reachedEnd := now.held.next_le inv.extracted.length_le
  have counts := countFin_eq { receiver.buffer with
    nextRxSeq := start.ofPlace reached
    data := numbered start joined
    size := left + getSize (slice stream first stop).1
    availBytes := receiver.buffer.availBytes + UInt32.ofNat (reached - next)
    sackList := final.map (numberBlock start) } stream.length rfl fun got => by
      obtain ⟨fin, away⟩ := inv.fin got
      have further := advanced.further
      exact ⟨fin, by omega, by omega⟩
  refine ⟨_, reached, joined, final, ?_, now, rfl, lists.advanced advanced isOpen⟩
  dsimp only at reports moves counts
  rw [TcpRxBuffer.insert]
  simp only [fragment, Option.bind_eq_bind, Option.bind_some, if_neg (not_not.mpr asserted),
    if_neg fresh, stores, reports, moves, counts]
  rfl

end FISim.Tcp
