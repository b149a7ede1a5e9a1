import FISim.Tcp.Tally

/-!
The counters of `TcpTxBuffer` against the flags of its items.
-/

namespace FISim.Tcp

open SequenceNumber32 Transition Scoreboard

namespace TcpTxBuffer

variable {buffer next : TcpTxBuffer}
variable {s numBytes offset : UInt32} {seq : SequenceNumber32} {index : ℕ} {now : Int64}

theorem exact_recut {list items : List TcpTxItem}
    {sackedOut lostOut retrans later : UInt32} {made more : ℕ}
    (exact : Exact ⟨list, sackedOut, lostOut, retrans⟩) (short : (bytes list).length < 2 ^ 32)
    (recut : Recut ⟨list, retrans, made⟩ ⟨items, later, more⟩) :
    Exact ⟨items, sackedOut, lostOut, later⟩ := by
  have shortAfter := short
  rw [← show bytes items = bytes list from recut.bytes] at shortAfter
  have sum := recut.retrans
  have counted := congrArg UInt32.toNat exact.retrans
  dsimp only at sum counted
  rw [tally_toNat _ short] at counted
  have after := sum (Nat.le_of_eq counted.symm)
  refine ⟨?_, ?_, ?_, ?_⟩
  · exact exact.sacked.trans (congrArg UInt32.ofNat recut.sacked).symm
  · exact exact.lost.trans (congrArg UInt32.ofNat recut.lost).symm
  · apply UInt32.toNat_inj.mp
    dsimp only
    rw [tally_toNat _ shortAfter]
    omega
  · intro item member
    obtain ⟨old, found, sacked, lost, -⟩ := recut.flags item member
    rw [sacked, lost]
    exact exact.exclusive old found

theorem getTransmittedSegment_tallied (laid : Laid buffer) (tallied : Tallied buffer)
    (positive : s ≠ 0) (got : buffer.getTransmittedSegment s seq = some (next, index)) :
    Tallied next := by
  obtain ⟨before, item, after, retrans, made, recut, -, -, -, rfl⟩ :=
    getTransmittedSegment_cases laid positive got
  have exact := exact_recut tallied.exact laid.sentShort recut
  have marks : Shifts ⟨[item], buffer.sackedOut, buffer.lostOut, retrans⟩
      ⟨[{ item with retrans := true }], buffer.sackedOut, buffer.lostOut,
        if item.retrans then retrans else retrans + item.size⟩ := by
    constructor
    · simp [TcpTxItem.size]
    · simp [TcpTxItem.size]
    · cases marked : item.retrans with
      | true => simp [marked, TcpTxItem.size]
      | false => simp [marked, TcpTxItem.size]
    · intro apart other member
      rw [List.mem_singleton.mp member]
      exact apart item (List.mem_singleton_self _)
  have placed := marks.inside before after
  simp only [List.append_assoc, List.cons_append, List.nil_append] at placed
  exact ⟨placed.exact exact, tallied.plain⟩

theorem getNewSegment_tallied (laid : Laid buffer) (tallied : Tallied buffer) (positive : s ≠ 0)
    (got : buffer.getNewSegment s = some (next, index)) : Tallied next := by
  obtain ⟨item, rest, retrans, made, recut, -, -, rfl⟩ := getNewSegment_cases laid positive got
  have plain : ∀ other ∈ item :: rest, Plain other := by
    intro other member
    obtain ⟨old, found, sacked, lost, marked⟩ := recut.flags other member
    obtain ⟨oldSacked, oldLost, oldRetrans⟩ := tallied.plain old found
    refine ⟨sacked.trans oldSacked, lost.trans oldLost, ?_⟩
    rw [← Bool.not_eq_true] at oldRetrans ⊢
    exact fun still => oldRetrans (marked still)
  obtain ⟨unsacked, kept, fresh⟩ := plain item (List.mem_cons_self)
  have none : ∀ items : List TcpTxItem, (∀ other ∈ items, Plain other) →
      flagged TcpTxItem.retrans items = 0 := by
    intro items all
    induction items with
    | nil => rfl
    | cons first others ih =>
        rw [flagged_cons, (all first (List.mem_cons_self)).2.2,
          ih fun other member => all other (List.mem_cons_of_mem _ member)]
        rfl
  have same : retrans = buffer.retrans := by
    have sum := recut.retrans
    dsimp only at sum
    rw [none _ tallied.plain, none _ plain] at sum
    exact UInt32.toNat_inj.mp (sum (Nat.zero_le _))
  have exact := tallied.exact
  refine ⟨⟨?_, ?_, ?_, ?_⟩, fun other member => plain other (List.mem_cons_of_mem _ member)⟩
  · simpa [scoreboard, unsacked] using exact.sacked
  · simpa [scoreboard, kept] using exact.lost
  · simpa [scoreboard, fresh, same] using exact.retrans
  · intro other member
    rcases List.mem_append.mp member with inside | last
    · exact exact.exclusive other inside
    · rw [List.mem_singleton.mp last]
      exact Or.inl unsacked

theorem copyFromSequence_tallied {found : Option ℕ} (laid : Laid buffer) (tallied : Tallied buffer)
    (copied : buffer.copyFromSequence now numBytes seq = some (next, found)) : Tallied next := by
  rcases copyFromSequence_cases copied with ⟨-, rfl⟩ | ⟨s, middle, index, outItem, -, copy⟩
  · exact tallied
  · have counted : Tallied middle := by
      rcases copy.source with ⟨got, -⟩ | ⟨-, got, -⟩
      · exact getTransmittedSegment_tallied laid tallied copy.positive got
      · exact getNewSegment_tallied laid tallied copy.positive got
    obtain ⟨bound, isItem⟩ := List.getElem?_eq_some_iff.mp copy.item
    have isList : middle.sentList =
        middle.sentList.take index ++ outItem :: middle.sentList.drop (index + 1) := by
      rw [← isItem, List.getElem_cons_drop, List.take_append_drop]
    have stamps : Shifts { middle.scoreboard with items := [outItem] }
        { middle.scoreboard with items := [{ outItem with lastSent := now }] } := by
      refine ⟨by simp [TcpTxItem.size], by simp [TcpTxItem.size], by simp [TcpTxItem.size], ?_⟩
      intro apart other member
      rw [List.mem_singleton.mp member]
      exact apart outItem (List.mem_singleton_self _)
    have placed := stamps.inside (middle.sentList.take index) (middle.sentList.drop (index + 1))
    simp only [List.append_assoc, List.cons_append, List.nil_append] at placed
    rw [← isList] at placed
    refine counted.shifted ?_ (by rw [copy.next])
    rw [copy.next]
    simp only [scoreboard, List.set_eq_take_append_cons_drop, if_pos bound]
    exact placed

/-- The items behind the first `offset` bytes, the first of them without the bytes it loses. -/
def remaining : ℕ → List TcpTxItem → List TcpTxItem
  | _, [] => []
  | offset, item :: rest =>
      if item.packet.length ≤ offset then remaining (offset - item.packet.length) rest
      else
        { item with
          packet := item.packet.drop offset
          startSeq := item.startSeq.plus (UInt32.ofNat offset) } :: rest

theorem remaining_zero {items : List TcpTxItem} (filled : Filled items) :
    remaining 0 items = items := by
  cases items with
  | nil => rfl
  | cons item rest =>
      have some_bytes := length_ne_zero filled (List.mem_cons_self)
      rw [remaining, if_neg (by omega)]
      simp [plus]

theorem counter_sub {marked : Bool} {count size before kept rest : UInt32}
    (sizes : (if marked then size else 0) + kept = before) :
    (if marked then count - size else count) + (before + rest) = count + (kept + rest) := by
  cases marked with
  | true =>
      rw [if_pos rfl] at sizes ⊢
      grind
  | false =>
      rw [if_neg Bool.false_ne_true] at sizes ⊢
      grind

theorem removeFromCounts_shifts {before item : TcpTxItem} (kept : List TcpTxItem)
    {rest : List TcpTxItem}
    (removed : (buffer.shortened (kept ++ rest) offset).removeFromCounts item offset = some next)
    (isList : buffer.sentList = before :: rest)
    (same : before.sacked = item.sacked ∧ before.lost = item.lost ∧ before.retrans = item.retrans)
    (sizes : ∀ flag : TcpTxItem → Bool, flag before = flag item →
      (∀ other ∈ kept, flag other = flag item) →
      (if flag item then offset else 0) + tally flag kept = tally flag [before])
    (alike : ∀ other ∈ kept, other.sacked = item.sacked ∧ other.lost = item.lost ∧
      other.retrans = item.retrans) :
    Shifts buffer.scoreboard next.scoreboard := by
  obtain ⟨-, rfl⟩ := removeFromCounts_cases removed
  have whole : ∀ flag : TcpTxItem → Bool,
      tally flag (before :: rest) = tally flag [before] + tally flag rest := by
    intro flag
    rw [← tally_append, List.singleton_append]
  simp only [scoreboard, shortened, isList]
  refine ⟨?_, ?_, ?_, ?_⟩
  · dsimp only
    rw [whole, tally_append]
    exact counter_sub (sizes TcpTxItem.sacked same.1 fun other member => (alike other member).1)
  · dsimp only
    rw [whole, tally_append]
    exact counter_sub (sizes TcpTxItem.lost same.2.1 fun other member => (alike other member).2.1)
  · dsimp only
    rw [whole, tally_append]
    exact counter_sub
      (sizes TcpTxItem.retrans same.2.2 fun other member => (alike other member).2.2)
  · intro apart other member
    rcases List.mem_append.mp member with inside | inRest
    · rw [(alike other inside).1, (alike other inside).2.1, ← same.1, ← same.2.1]
      exact apart before (List.mem_cons_self)
    · exact apart other (List.mem_cons_of_mem _ inRest)

theorem discarded_head_shifts {item : TcpTxItem} {rest : List TcpTxItem}
    (isList : buffer.sentList = item :: rest)
    (removed : (buffer.shortened rest item.size).removeFromCounts item item.size = some next) :
    Shifts buffer.scoreboard next.scoreboard := by
  refine removeFromCounts_shifts [] removed isList ⟨rfl, rfl, rfl⟩ ?_ ?_
  · intro flag _ _
    rw [tally_cons]
  · exact fun other member => absurd member (List.not_mem_nil)

theorem discarded_part_shifts {item : TcpTxItem} {rest : List TcpTxItem} {packet : Packet}
    (laid : Laid buffer) (isList : buffer.sentList = item :: rest) (less : offset < item.size)
    (packet_eq : packet = item.packet.drop offset.toNat)
    (removed : (buffer.shortened
      ({ item with packet, startSeq := item.startSeq.plus offset } :: rest) offset).removeFromCounts
        { item with packet, startSeq := item.startSeq.plus offset } offset = some next) :
    Shifts buffer.scoreboard next.scoreboard := by
  have short := laid.sentShort
  rw [isList, bytes_cons, List.length_append] at short
  have size := size_toNat item (by omega)
  rw [UInt32.lt_iff_toNat_lt, size] at less
  have sum : offset + getSize packet = item.size := by
    apply UInt32.toNat_inj.mp
    rw [UInt32.toNat_add, getSize_toNat (by rw [packet_eq, List.length_drop]; omega), size,
      packet_eq, List.length_drop]
    omega
  refine removeFromCounts_shifts [{ item with packet, startSeq := item.startSeq.plus offset }]
    removed isList ⟨rfl, rfl, rfl⟩ ?_ ?_
  · intro flag same _
    rw [tally_cons, tally_cons, tally_nil, same]
    split
    · rw [UInt32.add_zero, UInt32.add_zero, ← sum]
      rfl
    · rfl
  · intro other member
    rw [List.mem_singleton.mp member]
    exact ⟨rfl, rfl, rfl⟩

theorem copyFromSequence_unsent (laid : Laid buffer) (unsent : buffer.sentList = [])
    (copied : buffer.copyFromSequence now numBytes seq = some (next, some index)) :
    ∃ item, next.sentList = [item] ∧ item.packet.length ≤ numBytes.toNat := by
  obtain ⟨item, here, serves⟩ := copyFromSequence_serves laid copied
  rcases copyFromSequence_cases copied with ⟨⟨⟩, -⟩ | ⟨s, middle, place, outItem, isIndex, copy⟩
  have single : ∃ first, next.sentList = [first] := by
    rcases copy.source with ⟨got, -⟩ | ⟨-, got, -⟩
    · obtain ⟨before, found, after, retrans, made, recut, -⟩ :=
        getTransmittedSegment_cases laid copy.positive got
      obtain ⟨old, member, -⟩ := recut.flags found (by simp)
      rw [unsent] at member
      cases member
    · obtain ⟨found, rest, retrans, made, recut, -, rfl, rfl⟩ :=
        getNewSegment_cases laid copy.positive got
      rw [copy.next, unsent]
      exact ⟨_, rfl⟩
  obtain ⟨first, isNext⟩ := single
  have member := List.mem_of_getElem? here
  rw [isNext, List.mem_singleton] at member
  exact ⟨first, isNext, member ▸ serves.most⟩

theorem discardLoop_tallied {turns : ℕ} (laid : Laid buffer) (tallied : Tallied buffer)
    (discarded : discardLoop now turns buffer offset = some next) :
    Tallied next ∧ next.sentList = remaining offset.toNat buffer.sentList := by
  induction turns generalizing buffer offset with
  | zero => cases discarded
  | succ turns ih =>
      rcases discardLoop_cases discarded with ⟨ended, rfl⟩ |
        ⟨moved, item, rest, refilled, isList, turned⟩
      · refine ⟨tallied, ?_⟩
        rcases eq_zero_of_ended ended with zero | zero
        · rw [laid.sentList_nil zero]
          rfl
        · rw [zero, UInt32.toNat_zero, remaining_zero laid.sent]
      · have arranged := refilled.rearranged laid
        have counts : Tallied moved := by
          rcases refilled with rfl | ⟨-, index, copied⟩
          · exact tallied
          · exact copyFromSequence_tallied laid tallied copied
        have short := arranged.laid.sentShort
        rw [isList, bytes_cons, List.length_append] at short
        have size := size_toNat item (by omega)
        have same : remaining offset.toNat buffer.sentList =
            remaining offset.toNat (item :: rest) := by
          rcases refilled with rfl | ⟨unsent, index, copied⟩
          · rw [isList]
          · obtain ⟨first, isNext, few⟩ := copyFromSequence_unsent laid unsent copied
            rw [isList] at isNext
            obtain ⟨rfl, rfl⟩ := List.cons.inj isNext
            rw [unsent, remaining, remaining, if_pos few, remaining]
        rw [same, remaining]
        rcases turned with ⟨whole, counted, removed, later⟩ | ⟨less, packet, cut, removed⟩
        · have order := UInt32.le_iff_toNat_le.mp whole
          have cutLaid := (discarded_head arranged.laid isList removed).laid
          have shifts := discarded_head_shifts isList removed
          obtain ⟨-, isCounted⟩ := removeFromCounts_cases removed
          have after := ih cutLaid (counts.shifted shifts (by rw [isCounted]; rfl)) later
          rw [if_pos (by omega), ← size, ← UInt32.toNat_sub_of_le _ _ whole]
          rw [isCounted] at after
          exact after
        · obtain ⟨packet_eq, -⟩ := discarded_part arranged.laid isList less cut removed
          have shifts := discarded_part_shifts arranged.laid isList less packet_eq removed
          obtain ⟨-, isNext⟩ := removeFromCounts_cases removed
          have order := UInt32.lt_iff_toNat_lt.mp less
          refine ⟨counts.shifted shifts (by rw [isNext]; rfl), ?_⟩
          rw [if_neg (by omega), isNext, packet_eq, UInt32.ofNat_toNat]
          rfl

theorem moveHeadSack_cases (moves : buffer.moveHeadSack = some next) :
    ((∀ head ∈ buffer.sentList.head?, head.sacked = false) ∧ next = buffer) ∨
      ∃ head rest cleared moved, buffer.sentList = head :: rest ∧ head.sacked = true ∧
        cleared = { buffer with
          sentList := { head with sacked := false } :: rest
          sackedOut := buffer.sackedOut - head.size } ∧
        cleared.addRenoSack = some moved ∧ next = moved.markHeadAsLost := by
  rw [moveHeadSack] at moves
  split at moves
  · rename_i isEmpty
    refine Or.inl ⟨?_, (Option.some.inj moves).symm⟩
    rw [isEmpty]
    intro head member
    cases member
  · rename_i head rest isList
    split at moves
    · rename_i sacked
      split at moves
      · cases moves
      · obtain ⟨moved, added, result⟩ := Option.bind_eq_some_iff.mp moves
        exact Or.inr ⟨head, rest, _, moved, isList, sacked, rfl, added,
          (Option.some.inj result).symm⟩
    · rename_i unsacked
      refine Or.inl ⟨?_, (Option.some.inj moves).symm⟩
      intro other member
      rw [isList] at member
      obtain rfl := Option.some.inj member
      exact Bool.not_eq_true _ ▸ unsacked

/-- The head is not acknowledged, or the mark that it gives up goes to an item that is not lost. -/
def HeadFresh (items : List TcpTxItem) : Prop :=
  ∀ head ∈ items.head?, head.sacked = true → Fresh items.tail

instance (items : List TcpTxItem) : Decidable (HeadFresh items) :=
  inferInstanceAs (Decidable (∀ head ∈ items.head?, head.sacked = true → Fresh items.tail))

theorem moveHeadSack_tallied (tallied : Tallied buffer) (moves : buffer.moveHeadSack = some next)
    (fresh : HeadFresh buffer.sentList) : Tallied next := by
  rcases moveHeadSack_cases moves with
    ⟨-, rfl⟩ | ⟨head, rest, cleared, moved, isList, sacked, isCleared, added, rfl⟩
  · exact tallied
  · have clears : Shifts buffer.scoreboard cleared.scoreboard := by
      rw [isCleared, scoreboard, isList]
      refine Shifts.cons ?_ (Shifts.refl ⟨rest, _, _, _⟩)
      refine ⟨by simp [sacked], by simp [TcpTxItem.size], by simp [TcpTxItem.size], ?_⟩
      intro _ other member
      rw [List.mem_singleton.mp member]
      exact Or.inl rfl
    have adds := addRenoSack_shifts added (by
      rw [isCleared]
      rw [isList] at fresh
      exact fresh head rfl sacked)
    have app := (addRenoSack_relabelled added).appList
    have marks := markHeadAsLost_shifts moved
    refine tallied.shifted ((clears.trans adds).trans marks) ?_
    rw [(markHeadAsLost_relabelled moved).appList, app, isCleared]

theorem moveHeadSack_fresh (moves : buffer.moveHeadSack = some next)
    (exclusive : Exclusive next.sentList) : HeadFresh buffer.sentList := by
  rcases moveHeadSack_cases moves with
    ⟨unsacked, rfl⟩ | ⟨head, rest, cleared, moved, isList, sacked, isCleared, added, rfl⟩
  · intro head member still
    rw [unsacked head member] at still
    cases still
  · intro _ _ _
    obtain ⟨first, others, isFirst, result⟩ := addRenoSack_cases added
    have isRest : others = rest := by
      rw [isCleared] at isFirst
      exact (List.cons.inj isFirst).2.symm
    subst isRest
    rw [isList, List.tail_cons]
    rcases result with ⟨none, -⟩ | ⟨item, behind, isRest, -, isMoved⟩
    · rw [Fresh, none]
      intro item member
      cases member
    · rw [isMoved] at exclusive
      rw [Fresh, isRest]
      intro other member
      obtain rfl := Option.some.inj member
      exact (exclusive { item with sacked := true } (by simp [markHeadAsLost])).resolve_left
        (by simp)

theorem passedFin_tallied (tallied : Tallied buffer) (seq : SequenceNumber32) :
    Tallied (buffer.passedFin seq) := by
  rw [passedFin]
  split
  · exact ⟨tallied.exact, tallied.plain⟩
  · exact tallied

theorem passedFin_sentList (buffer : TcpTxBuffer) (seq : SequenceNumber32) :
    (buffer.passedFin seq).sentList = buffer.sentList := by
  rw [passedFin]
  split
  · rfl
  · rfl

def left (buffer : TcpTxBuffer) (seq : SequenceNumber32) : List TcpTxItem :=
  remaining (seq.minus buffer.firstByteSeq).toUInt32.toNat buffer.sentList

theorem discardUpTo_tallied (laid : Laid buffer) (tallied : Tallied buffer)
    (discarded : buffer.discardUpTo now seq = some next)
    (fresh : buffer.firstByteSeq.greaterEqual seq = false → HeadFresh (buffer.left seq)) :
    Tallied next := by
  rcases discardUpTo_cases discarded with ⟨-, rfl⟩ | ⟨beyond, looped, moved, loops, moves, _, rfl⟩
  · exact tallied
  · obtain ⟨counts, isLeft⟩ := discardLoop_tallied laid tallied loops
    have after := moveHeadSack_tallied (passedFin_tallied counts seq) moves (by
      rw [passedFin_sentList, isLeft]
      exact fresh beyond)
    exact ⟨after.exact, after.plain⟩

theorem discardUpTo_fresh (laid : Laid buffer) (tallied : Tallied buffer)
    (discarded : buffer.discardUpTo now seq = some next) (exclusive : Exclusive next.sentList)
    (beyond : buffer.firstByteSeq.greaterEqual seq = false) : HeadFresh (buffer.left seq) := by
  rcases discardUpTo_cases discarded with ⟨before, -⟩ | ⟨-, looped, moved, loops, moves, _, rfl⟩
  · rw [beyond] at before
    cases before
  · have kept := moveHeadSack_fresh moves exclusive
    rw [passedFin_sentList, (discardLoop_tallied laid tallied loops).2] at kept
    exact kept

/-- What `ConsistencyCheck` states, that no item is both acknowledged and lost, and that the bytes
that `BytesInFlight` subtracts are no more than those that were sent. -/
structure Consistent (buffer : TcpTxBuffer) : Prop where
  sackedOut : buffer.sackedOut.toNat = flagged TcpTxItem.sacked buffer.sentList
  lostOut : buffer.lostOut.toNat = flagged TcpTxItem.lost buffer.sentList
  retrans : buffer.retrans.toNat = flagged TcpTxItem.retrans buffer.sentList
  exclusive : ∀ item ∈ buffer.sentList, item.sacked = false ∨ item.lost = false
  appList : ∀ item ∈ buffer.appList,
    item.sacked = false ∧ item.lost = false ∧ item.retrans = false
  leftOut : buffer.sackedOut.toNat + buffer.lostOut.toNat ≤ buffer.sentSize.toNat

theorem Consistent.bytesInFlight_isSome (consistent : Consistent buffer) :
    buffer.bytesInFlight.isSome := by
  have few := consistent.leftOut
  have below := buffer.sentSize.toNat_lt
  rw [bytesInFlight, if_pos]
  · rfl
  · rw [UInt32.le_iff_toNat_le, UInt32.toNat_add]
    omega

theorem flagged_exclusive {items : List TcpTxItem} (exclusive : Exclusive items) :
    flagged TcpTxItem.sacked items + flagged TcpTxItem.lost items ≤ (bytes items).length := by
  induction items with
  | nil => exact Nat.le_refl 0
  | cons item rest ih =>
      have others := ih fun other member => exclusive other (List.mem_cons_of_mem _ member)
      rw [flagged_cons, flagged_cons, bytes_cons, List.length_append]
      rcases exclusive item (List.mem_cons_self) with unsacked | kept
      · rw [unsacked, if_neg Bool.false_ne_true]
        split
        · omega
        · omega
      · rw [kept, if_neg Bool.false_ne_true]
        split
        · omega
        · omega

theorem Tallied.consistent (laid : Laid buffer) (tallied : Tallied buffer) : Consistent buffer := by
  have sacked := congrArg UInt32.toNat tallied.exact.sacked
  have lost := congrArg UInt32.toNat tallied.exact.lost
  have retrans := congrArg UInt32.toNat tallied.exact.retrans
  simp only [scoreboard, tally_toNat _ laid.sentShort] at sacked lost retrans
  refine ⟨sacked, lost, retrans, tallied.exact.exclusive, tallied.plain, ?_⟩
  rw [laid.sentSize]
  refine Nat.le_trans (Nat.le_of_eq ?_) (flagged_exclusive tallied.exact.exclusive)
  exact congrArg₂ (· + ·) sacked lost

/-- The flags that an operation finds where it would leave a count or a list wrong. -/
def Spares (buffer : TcpTxBuffer) : Operation → Prop
  | .addRenoSack => Fresh buffer.sentList.tail
  | .discardUpTo _ seq =>
      buffer.firstByteSeq.greaterEqual seq = false → HeadFresh (buffer.left seq)
  | .resetLastSegmentSent => ∀ item ∈ buffer.sentList.getLast?,
      item.sacked = false ∧ item.lost = false ∧ item.retrans = false
  | _ => True

theorem step_laid {operation : Operation} (laid : Laid buffer)
    (stepped : buffer.step operation = some next) : Laid next := by
  cases operation with
  | add p =>
      obtain rfl := Option.some.inj stepped
      cases accepted : (buffer.add p).2 with
      | true => exact (add_accepted laid p.2 accepted).1
      | false =>
          rw [add_refused accepted]
          exact laid
  | discardUpTo now seq =>
      cases order : buffer.firstByteSeq.greaterEqual seq with
      | true =>
          rcases discardUpTo_cases stepped with ⟨-, rfl⟩ | ⟨beyond, -⟩
          · exact laid
          · rw [order] at beyond
            cases beyond
      | false => exact (discardUpTo_discarded laid stepped order).1
  | _ => exact (step_rearranged laid stepped (fun _ => nofun) fun _ _ => nofun).laid

theorem step_tallied {operation : Operation} (laid : Laid buffer) (tallied : Tallied buffer)
    (spares : Spares buffer operation) (stepped : buffer.step operation = some next) :
    Tallied next := by
  cases operation with
  | add p =>
      obtain rfl := Option.some.inj stepped
      exact add_tallied tallied p
  | copyFromSequence now numBytes seq =>
      obtain ⟨⟨copied, found⟩, copies, rfl⟩ := Option.map_eq_some_iff.mp stepped
      exact copyFromSequence_tallied laid tallied copies
  | discardUpTo now seq => exact discardUpTo_tallied laid tallied stepped spares
  | update list =>
      obtain ⟨⟨updated, bytesSacked⟩, updates, rfl⟩ := Option.map_eq_some_iff.mp stepped
      exact tallied.shifted (update_shifts updates) (update_relabelled updates).appList
  | addRenoSack =>
      exact tallied.shifted (addRenoSack_shifts stepped spares) (addRenoSack_relabelled stepped).appList
  | resetRenoSack =>
      obtain rfl := Option.some.inj stepped
      exact resetRenoSack_tallied tallied
  | setSentListLost resetSack => exact setSentListLost_tallied laid tallied stepped
  | resetSentList =>
      obtain rfl := Option.some.inj stepped
      exact resetSentList_tallied tallied
  | resetLastSegmentSent =>
      obtain rfl := Option.some.inj stepped
      exact resetLastSegmentSent_tallied tallied spares
  | markHeadAsLost =>
      obtain rfl := Option.some.inj stepped
      exact tallied.shifted (markHeadAsLost_shifts buffer) (markHeadAsLost_relabelled buffer).appList
  | deleteRetransmittedFlagFromHead =>
      exact tallied.shifted (deleteRetransmittedFlagFromHead_shifts stepped)
        (deleteRetransmittedFlagFromHead_relabelled stepped).appList

theorem step_spares {operation : Operation} (laid : Laid buffer) (tallied : Tallied buffer)
    (stepped : buffer.step operation = some next) (consistent : Consistent next) :
    Spares buffer operation := by
  cases operation with
  | addRenoSack => exact addRenoSack_fresh stepped consistent.exclusive
  | discardUpTo now seq => exact discardUpTo_fresh laid tallied stepped consistent.exclusive
  | resetLastSegmentSent =>
      obtain rfl := Option.some.inj stepped
      intro item last
      refine consistent.appList item ?_
      rw [resetLastSegmentSent, show buffer.sentList.getLast? = some item from last]
      exact List.mem_cons_self
  | _ => trivial

/-- The counters are exact throughout a run exactly if each step of it spares the flags. -/
theorem consistent_iff_spares (n maxBuffer dupAckThresh : UInt32) (sackEnabled : Bool)
    (operations : List Operation) :
    Throughout step Consistent (initial n maxBuffer dupAckThresh sackEnabled) operations ↔
      Guarded step (fun buffer operation => (buffer.step operation).isSome →
        Spares buffer operation) (initial n maxBuffer dupAckThresh sackEnabled) operations := by
  have gives : ∀ buffer : TcpTxBuffer, Laid buffer ∧ Tallied buffer → Consistent buffer :=
    fun buffer holds => holds.2.consistent holds.1
  refine throughout_iff_guarded_some gives ?_ ?_ ?_
  · exact fun buffer operation next holds spares stepped =>
      ⟨step_laid holds.1 stepped, step_tallied holds.1 holds.2 spares stepped⟩
  · exact fun buffer operation next holds stepped consistent =>
      step_spares holds.1 holds.2 stepped consistent
  · exact ⟨initial_laid n maxBuffer dupAckThresh sackEnabled,
      ⟨rfl, rfl, rfl, fun item member => absurd member (List.not_mem_nil)⟩,
      fun item member => absurd member (List.not_mem_nil)⟩

/-- A timeout after which everything is lost, and a duplicate acknowledgement. -/
def timeoutThenDupAck : List Operation :=
  [.add ⟨[1, 2, 3, 4, 5, 6], by decide⟩, .copyFromSequence 1 3 ⟨100⟩, .copyFromSequence 1 3 ⟨103⟩,
    .setSentListLost true, .addRenoSack]

theorem timeoutThenDupAck_counts :
    (run step (initial 100 32768 3 false) timeoutThenDupAck).map (fun buffer =>
      (buffer.sackedOut, buffer.lostOut, buffer.sentSize, buffer.bytesInFlight)) =
      some (3, 6, 6, none) := by
  decide +kernel

theorem timeoutThenDupAck_inconsistent :
    ¬ Throughout step Consistent (initial 100 32768 3 false) timeoutThenDupAck := by
  intro holds
  obtain ⟨buffer, ran, counts⟩ := Option.map_eq_some_iff.mp timeoutThenDupAck_counts
  have flight := (holds timeoutThenDupAck [] buffer (by simp) ran).bytesInFlight_isSome
  rw [(Prod.mk.inj (Prod.mk.inj (Prod.mk.inj counts).2).2).2] at flight
  cases flight

end TcpTxBuffer

end FISim.Tcp
