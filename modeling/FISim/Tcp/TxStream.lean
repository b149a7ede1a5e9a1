import FISim.Tcp.TxMarking

/-!
What `Add` and `DiscardUpTo` do with the bytes that `TcpTxBuffer` holds.
-/

namespace FISim.Tcp

open SequenceNumber32

namespace TcpTxBuffer

variable {buffer first second third next : TcpTxBuffer} {seq : SequenceNumber32} {index : ℕ}
  {now : Int64}

theorem add_accepted {p : Packet} (laid : Laid buffer) (short : p.length < 2 ^ 32)
    (accepted : (buffer.add p).2 = true) :
    Laid (buffer.add p).1 ∧ (buffer.add p).1.held = buffer.held ++ p ∧
      (buffer.add p).1.firstByteSeq = buffer.firstByteSeq := by
  have size := getSize_toNat short
  rw [add] at accepted ⊢
  split
  · rename_i fits
    split
    · rename_i positive
      have room := laid.room
      have below := buffer.maxBuffer.toNat_lt
      rw [available] at fits
      rw [UInt32.le_iff_toNat_le, UInt32.toNat_sub_of_le _ _ room, size] at fits
      have least := UInt32.le_iff_toNat_le.mp room
      have grown : (buffer.size + getSize p).toNat = buffer.size.toNat + p.length := by
        rw [UInt32.toNat_add, size]
        omega
      have held : bytes buffer.sentList ++ bytes (buffer.appList ++
          [{ id := buffer.made, packet := p }]) = buffer.held ++ p := by
        simp [held]
      refine ⟨?_, held, rfl⟩
      constructor
      · exact laid.sentSize
      · rw [TcpTxBuffer.held, held, List.length_append, ← laid.size]
        exact grown
      · exact laid.starts
      · exact laid.sent
      · intro item member
        rcases List.mem_append.mp member with inside | last
        · exact laid.app item inside
        · rw [List.mem_singleton.mp last]
          intro empty
          rw [gt_iff_lt, UInt32.lt_iff_toNat_lt, size, show p.length = 0 from congrArg _ empty]
            at positive
          exact absurd positive (Nat.lt_irrefl 0)
      · rw [UInt32.le_iff_toNat_le]
        dsimp only
        omega
    · rename_i nothing
      have empty : p = [] := by
        rw [gt_iff_lt, UInt32.lt_iff_toNat_lt, size, UInt32.toNat_zero] at nothing
        exact List.length_eq_zero_iff.mp (by omega)
      exact ⟨laid, by rw [empty, List.append_nil], rfl⟩
  · rename_i full
    rw [if_neg full] at accepted
    cases accepted

theorem add_refused {p : Packet} (refused : (buffer.add p).2 = false) :
    (buffer.add p).1 = buffer := by
  rw [add] at refused ⊢
  split
  · rename_i fits
    rw [if_pos fits] at refused
    split at refused
    · cases refused
    · cases refused
  · rfl

theorem removeFromCounts_cases {item : TcpTxItem} {size : UInt32}
    (removed : buffer.removeFromCounts item size = some next) :
    ((item.sacked = true → size ≤ buffer.sackedOut) ∧
      (item.retrans = true → size ≤ buffer.retrans) ∧
      (item.lost = true → size ≤ buffer.lostOut)) ∧
    next = { buffer with
      sackedOut := if item.sacked then buffer.sackedOut - size else buffer.sackedOut
      retrans := if item.retrans then buffer.retrans - size else buffer.retrans
      lostOut := if item.lost then buffer.lostOut - size else buffer.lostOut } := by
  rw [removeFromCounts] at removed
  split at removed
  · rename_i covered
    exact ⟨covered, (Option.some.inj removed).symm⟩
  · cases removed

/-- The buffer without `offset` bytes at the front, before the counts are set. -/
def shortened (buffer : TcpTxBuffer) (kept : List TcpTxItem) (offset : UInt32) : TcpTxBuffer :=
  { buffer with
    sentList := kept
    size := buffer.size - offset
    sentSize := buffer.sentSize - offset
    firstByteSeq := buffer.firstByteSeq.plus offset }

structure Discarded (first : TcpTxBuffer) (offset : UInt32) (second : TcpTxBuffer) : Prop where
  firstByteSeq : second.size ≠ 0 → second.firstByteSeq = first.firstByteSeq.plus offset
  held : second.held = first.held.drop offset.toNat
  maxBuffer : second.maxBuffer = first.maxBuffer
  laid : Laid second

theorem discarded_cut {item : TcpTxItem} {kept : List TcpTxItem} {offset : UInt32}
    (laid : Laid buffer)
    (removed : (buffer.shortened kept offset).removeFromCounts item offset = some next)
    (few : offset.toNat ≤ (bytes buffer.sentList).length)
    (same : bytes kept = (bytes buffer.sentList).drop offset.toNat) (filled : Filled kept)
    (starts : Starts (buffer.firstByteSeq.plus offset) kept) :
    Discarded buffer offset next := by
  obtain ⟨-, rfl⟩ := removeFromCounts_cases removed
  have sentSize := laid.sentSize
  have size := laid.size
  have held : bytes kept ++ bytes buffer.appList = buffer.held.drop offset.toNat := by
    rw [same, held, List.drop_append_of_le_length few]
  have all : (bytes buffer.sentList).length ≤ buffer.held.length := by
    rw [TcpTxBuffer.held, List.length_append]
    exact Nat.le_add_right _ _
  have order : offset ≤ buffer.size := by
    rw [UInt32.le_iff_toNat_le]
    omega
  refine ⟨fun _ => rfl, held, rfl, ?_⟩
  constructor
  · dsimp only [shortened]
    rw [UInt32.toNat_sub_of_le _ _ (by rw [UInt32.le_iff_toNat_le]; omega), sentSize, same,
      List.length_drop]
  · dsimp only [TcpTxBuffer.held, shortened]
    rw [held, List.length_drop, ← size]
    exact UInt32.toNat_sub_of_le _ _ order
  · exact starts
  · exact filled
  · exact laid.app
  · have room := UInt32.le_iff_toNat_le.mp laid.room
    rw [UInt32.le_iff_toNat_le]
    dsimp only [shortened]
    rw [UInt32.toNat_sub_of_le _ _ order]
    omega

theorem Discarded.trans {before after : UInt32} (sooner : Discarded first before second)
    (later : Discarded second after third)
    (total : (before + after).toNat = before.toNat + after.toNat) :
    Discarded first (before + after) third := by
  constructor
  · intro remains
    have before : second.size ≠ 0 := by
      intro zero
      have empty := sooner.laid.size
      rw [zero, UInt32.toNat_zero] at empty
      refine remains (UInt32.toNat_inj.mp ?_)
      rw [later.laid.size, later.held, List.length_drop, UInt32.toNat_zero]
      omega
    rw [later.firstByteSeq remains, sooner.firstByteSeq before, plus_plus]
  · rw [later.held, sooner.held, List.drop_drop, total]
  · exact later.maxBuffer.trans sooner.maxBuffer
  · exact later.laid

theorem Rearranged.discarded {offset : UInt32} (arranged : Rearranged first second)
    (discarded : Discarded second offset third) : Discarded first offset third :=
  ⟨fun remains => (discarded.firstByteSeq remains).trans (by rw [arranged.firstByteSeq]),
    discarded.held.trans (by rw [arranged.held]), discarded.maxBuffer.trans arranged.maxBuffer,
    discarded.laid⟩

/-- Where the loop of `DiscardUpTo` finds the first item. -/
def Refilled (buffer : TcpTxBuffer) (now : Int64) (offset : UInt32) (moved : TcpTxBuffer) : Prop :=
  moved = buffer ∨ buffer.sentList = [] ∧
    ∃ index, buffer.copyFromSequence now offset buffer.firstByteSeq = some (moved, some index)

theorem discardLoop_cases {turns : ℕ} {offset : UInt32}
    (discarded : discardLoop now (turns + 1) buffer offset = some next) :
    (¬ (buffer.size > 0 ∧ offset > 0) ∧ next = buffer) ∨
      ∃ moved item rest, Refilled buffer now offset moved ∧ moved.sentList = item :: rest ∧
        ((item.size ≤ offset ∧ ∃ counted,
            (moved.shortened rest item.size).removeFromCounts item item.size = some counted ∧
            discardLoop now turns counted (offset - item.size) = some next) ∨
          (offset < item.size ∧ ∃ packet,
            createFragment item.packet offset (item.size - offset) = some packet ∧
            (moved.shortened ({ item with packet, startSeq := item.startSeq.plus offset } :: rest)
              offset).removeFromCounts { item with packet, startSeq := item.startSeq.plus offset }
                offset = some next)) := by
  rw [discardLoop] at discarded
  split at discarded
  · right
    extract_lets turn at discarded
    have turned : ∀ moved, Refilled buffer now offset moved → turn moved = some next →
        ∃ moved item rest, Refilled buffer now offset moved ∧ moved.sentList = item :: rest ∧
        ((item.size ≤ offset ∧ ∃ counted,
            (moved.shortened rest item.size).removeFromCounts item item.size = some counted ∧
            discardLoop now turns counted (offset - item.size) = some next) ∨
          (offset < item.size ∧ ∃ packet,
            createFragment item.packet offset (item.size - offset) = some packet ∧
            (moved.shortened ({ item with packet, startSeq := item.startSeq.plus offset } :: rest)
              offset).removeFromCounts { item with packet, startSeq := item.startSeq.plus offset }
                offset = some next)) := by
      intro moved refilled taken
      dsimp only [turn] at taken
      split at taken
      · cases taken
      · rename_i item rest isList
        refine ⟨moved, item, rest, refilled, isList, ?_⟩
        split at taken
        · cases taken
        · split at taken
          · rename_i whole
            obtain ⟨counted, removed, later⟩ := Option.bind_eq_some_iff.mp taken
            obtain ⟨covered, rfl⟩ := removeFromCounts_cases removed
            exact Or.inl ⟨whole, _, if_pos covered, later⟩
          · rename_i part
            obtain ⟨packet, cut, removed⟩ := Option.bind_eq_some_iff.mp taken
            exact Or.inr ⟨UInt32.not_le.mp part, packet, cut, removed⟩
    split at discarded
    · rename_i isEmpty
      obtain ⟨⟨copied, found⟩, copies, discarded⟩ := Option.bind_eq_some_iff.mp discarded
      obtain ⟨index, isFound, taken⟩ := Option.bind_eq_some_iff.mp discarded
      obtain rfl : found = some index := isFound
      exact turned copied (Or.inr ⟨isEmpty, index, copies⟩) taken
    · exact turned buffer (Or.inl rfl) discarded
  · rename_i ended
    exact Or.inl ⟨ended, (Option.some.inj discarded).symm⟩

theorem Refilled.rearranged {moved : TcpTxBuffer} {offset : UInt32} (laid : Laid buffer)
    (refilled : Refilled buffer now offset moved) : Rearranged buffer moved := by
  rcases refilled with rfl | ⟨-, index, copied⟩
  · exact Rearranged.refl laid
  · exact copyFromSequence_rearranged laid copied

theorem discarded_head {moved counted : TcpTxBuffer} {item : TcpTxItem} {rest : List TcpTxItem}
    (laid : Laid moved) (isList : moved.sentList = item :: rest)
    (removed : (moved.shortened rest item.size).removeFromCounts item item.size = some counted) :
    Discarded moved item.size counted := by
  have short := laid.sentShort
  have starts := laid.starts
  have filled := laid.sent
  rw [isList] at starts filled
  rw [isList, bytes_cons, List.length_append] at short
  have size := size_toNat item (by omega)
  apply discarded_cut laid removed
  · rw [isList, bytes_cons, List.length_append]
    omega
  · rw [isList, bytes_cons, size, List.drop_left]
  · exact fun other member => filled other (List.mem_cons_of_mem _ member)
  · exact starts.2

theorem discarded_part {moved : TcpTxBuffer} {item : TcpTxItem} {rest : List TcpTxItem}
    {offset : UInt32} {packet : Packet} (laid : Laid moved) (isList : moved.sentList = item :: rest)
    (less : offset < item.size)
    (cut : createFragment item.packet offset (item.size - offset) = some packet)
    (removed : (moved.shortened
      ({ item with packet, startSeq := item.startSeq.plus offset } :: rest) offset).removeFromCounts
        { item with packet, startSeq := item.startSeq.plus offset } offset = some next) :
    packet = item.packet.drop offset.toNat ∧ Discarded moved offset next := by
  have short := laid.sentShort
  have starts := laid.starts
  have filled := laid.sent
  rw [isList] at starts filled
  rw [isList, bytes_cons, List.length_append] at short
  have size := size_toNat item (by omega)
  rw [UInt32.lt_iff_toNat_lt, size] at less
  have left : (item.size - offset).toNat = item.packet.length - offset.toNat := by
    rw [UInt32.toNat_sub_of_le _ _ (by rw [UInt32.le_iff_toNat_le]; omega), size]
  have packet_eq : packet = item.packet.drop offset.toNat := by
    rw [createFragment] at cut
    split at cut
    · cases cut
    · rw [← Option.some.inj cut, left, ← List.length_drop, List.take_length]
  have length : packet.length = item.packet.length - offset.toNat := by
    rw [packet_eq, List.length_drop]
  refine ⟨packet_eq, ?_⟩
  apply discarded_cut laid removed
  · rw [isList, bytes_cons, List.length_append]
    omega
  · rw [isList, bytes_cons, bytes_cons, packet_eq, List.drop_append_of_le_length (by omega)]
  · intro other member
    rcases List.mem_cons.mp member with rfl | inside
    · exact List.ne_nil_of_length_pos (by dsimp only; omega)
    · exact filled other (List.mem_cons_of_mem _ inside)
  · refine ⟨by rw [starts.1], ?_⟩
    have same : offset + getSize packet = item.size := by
      apply UInt32.toNat_inj.mp
      rw [UInt32.toNat_add, getSize_toNat (by omega), size]
      omega
    rw [plus_plus]
    change Starts (moved.firstByteSeq.plus (offset + getSize packet)) rest
    rw [same]
    exact starts.2

theorem eq_zero_of_ended {size offset : UInt32} (ended : ¬ (size > 0 ∧ offset > 0)) :
    size = 0 ∨ offset = 0 := by
  rw [not_and_or, gt_iff_lt, gt_iff_lt, UInt32.not_lt, UInt32.not_lt] at ended
  rcases ended with zero | zero
  · exact Or.inl (UInt32.le_antisymm zero UInt32.zero_le)
  · exact Or.inr (UInt32.le_antisymm zero UInt32.zero_le)

theorem discardLoop_discarded {turns : ℕ} {offset : UInt32} (laid : Laid buffer)
    (discarded : discardLoop now turns buffer offset = some next) :
    Discarded buffer offset next := by
  induction turns generalizing buffer offset with
  | zero => cases discarded
  | succ turns ih =>
      rcases discardLoop_cases discarded with ⟨ended, rfl⟩ |
        ⟨moved, item, rest, refilled, isList, ⟨whole, counted, removed, later⟩ |
          ⟨less, packet, cut, removed⟩⟩
      · rcases eq_zero_of_ended ended with zero | zero
        · refine ⟨fun remains => absurd zero remains, ?_, rfl, laid⟩
          have empty := laid.size
          rw [zero, UInt32.toNat_zero] at empty
          rw [List.length_eq_zero_iff.mp empty.symm, List.drop_nil]
        · refine ⟨fun _ => ?_, ?_, rfl, laid⟩
          · rw [zero, plus, UInt32.add_zero]
          · rw [zero, UInt32.toNat_zero, List.drop_zero]
      · have arranged := refilled.rearranged laid
        have head := discarded_head arranged.laid isList removed
        have rest := ih head.laid later
        have order := UInt32.le_iff_toNat_le.mp whole
        have sum : item.size + (offset - item.size) = offset := by
          rw [UInt32.add_comm, UInt32.sub_add_cancel]
        have total := head.trans rest (by
          rw [sum, UInt32.toNat_sub_of_le _ _ whole]
          omega)
        rw [sum] at total
        exact arranged.discarded total
      · have arranged := refilled.rearranged laid
        exact arranged.discarded (discarded_part arranged.laid isList less cut removed).2

theorem discarded_head_size {moved counted : TcpTxBuffer} {item : TcpTxItem}
    {rest : List TcpTxItem} (laid : Laid moved) (isList : moved.sentList = item :: rest)
    (removed : (moved.shortened rest item.size).removeFromCounts item item.size = some counted) :
    counted.size.toNat < moved.size.toNat := by
  have head := discarded_head laid isList removed
  have some_bytes := length_ne_zero laid.sent (by rw [isList]; exact List.mem_cons_self)
  have short := laid.sentShort
  rw [isList, bytes_cons, List.length_append] at short
  rw [head.laid.size, head.held, List.length_drop, size_toNat item (by omega), laid.size, held,
    isList, bytes_cons, List.length_append, List.length_append]
  omega

/-- Each turn but the last discards a byte at least, so that more turns than bytes are enough. -/
theorem discardLoop_enough {turns other : ℕ} {offset : UInt32} (laid : Laid buffer)
    (enough : buffer.size.toNat < turns) (more : turns ≤ other) :
    discardLoop now turns buffer offset = discardLoop now other buffer offset := by
  induction turns generalizing buffer other offset with
  | zero => omega
  | succ turns ih =>
      obtain ⟨other, rfl⟩ : ∃ less, other = less + 1 := ⟨other - 1, by omega⟩
      rw [discardLoop, discardLoop]
      split
      · extract_lets turn otherTurn
        have same : ∀ moved, Rearranged buffer moved → turn moved = otherTurn moved := by
          intro moved arranged
          dsimp only [turn, otherTurn]
          cases isList : moved.sentList with
          | nil => rfl
          | cons item rest =>
              dsimp only
              split
              · rfl
              · split
                · rw [removeFromCounts]
                  split
                  · rename_i covered
                    have removed : (moved.shortened rest item.size).removeFromCounts item item.size =
                      some _ := if_pos covered
                    have fewer := discarded_head_size arranged.laid isList removed
                    rw [arranged.size] at fewer
                    exact ih (discarded_head arranged.laid isList removed).laid
                      (Nat.lt_of_lt_of_le fewer (Nat.le_of_lt_succ enough))
                      (Nat.le_of_succ_le_succ more)
                  · rfl
                · rfl
        split
        · cases copies : buffer.copyFromSequence now offset buffer.firstByteSeq with
          | none => rfl
          | some result =>
              obtain ⟨copied, found⟩ := result
              cases found with
              | none => rfl
              | some index => exact same copied (copyFromSequence_rearranged laid copies)
        · exact same buffer (Rearranged.refl laid)
      · rfl

theorem moveHeadSack_relabelled (moves : buffer.moveHeadSack = some next) :
    Relabelled buffer next := by
  rw [moveHeadSack] at moves
  split at moves
  · obtain rfl := Option.some.inj moves
    exact Relabelled.refl _
  · rename_i head rest isList
    split at moves
    · split at moves
      · cases moves
      · obtain ⟨moved, added, result⟩ := Option.bind_eq_some_iff.mp moves
        obtain rfl := Option.some.inj result
        have cleared : Relabelled buffer { buffer with
            sentList := { head with sacked := false } :: rest
            sackedOut := buffer.sackedOut - head.size } :=
          ⟨rfl, rfl, rfl, rfl, rfl, by rw [isList]; rfl⟩
        exact (cleared.trans (addRenoSack_relabelled added)).trans (markHeadAsLost_relabelled moved)
    · obtain rfl := Option.some.inj moves
      exact Relabelled.refl _

theorem Laid.sentList_nil (laid : Laid buffer) (empty : buffer.size = 0) :
    buffer.sentList = [] := by
  by_contra nonempty
  obtain ⟨item, rest, isList⟩ := List.exists_cons_of_ne_nil nonempty
  have size := laid.size
  have some_bytes := length_ne_zero laid.sent (by rw [isList]; exact List.mem_cons_self)
  rw [empty, UInt32.toNat_zero, held, isList, bytes_cons, List.length_append,
    List.length_append] at size
  omega

/-- The buffer behind the loop of `DiscardUpTo`, when a FIN may be acknowledged too. -/
def passedFin (buffer : TcpTxBuffer) (seq : SequenceNumber32) : TcpTxBuffer :=
  if buffer.size = 0 then { buffer with firstByteSeq := seq } else buffer

theorem passedFin_laid (laid : Laid buffer) (seq : SequenceNumber32) :
    Laid (buffer.passedFin seq) := by
  rw [passedFin]
  split
  · rename_i empty
    refine ⟨laid.sentSize, laid.size, ?_, laid.sent, laid.app, laid.room⟩
    dsimp only
    rw [laid.sentList_nil empty]
    trivial
  · exact laid

theorem discardUpTo_cases (discarded : buffer.discardUpTo now seq = some next) :
    (buffer.firstByteSeq.greaterEqual seq = true ∧ next = buffer) ∨
      buffer.firstByteSeq.greaterEqual seq = false ∧
        ∃ looped moved,
          discardLoop now (buffer.size.toNat + 1) buffer
            (seq.minus buffer.firstByteSeq).toUInt32 = some looped ∧
          (looped.passedFin seq).moveHeadSack = some moved ∧
          ∃ highestSack, next = { moved with highestSack } := by
  rw [discardUpTo] at discarded
  split at discarded
  · rename_i before
    exact Or.inl ⟨before, (Option.some.inj discarded).symm⟩
  · rename_i beyond
    obtain ⟨looped, loops, discarded⟩ := Option.bind_eq_some_iff.mp discarded
    obtain ⟨moved, moves, discarded⟩ := Option.bind_eq_some_iff.mp discarded
    refine Or.inr ⟨Bool.not_eq_true _ ▸ beyond, looped, moved, loops, moves, ?_⟩
    split at discarded
    · cases discarded
    · split at discarded
      · dsimp only at discarded
        split at discarded
        · exact ⟨_, (Option.some.inj discarded).symm⟩
        · cases discarded
      · dsimp only at discarded
        split at discarded
        · exact ⟨_, (Option.some.inj discarded).symm⟩
        · cases discarded

theorem discardUpTo_discarded (laid : Laid buffer)
    (discarded : buffer.discardUpTo now seq = some next)
    (beyond : buffer.firstByteSeq.greaterEqual seq = false) :
    Laid next ∧ next.firstByteSeq = seq ∧ next.maxBuffer = buffer.maxBuffer ∧
      next.held = buffer.held.drop (seq.minus buffer.firstByteSeq).toUInt32.toNat := by
  rcases discardUpTo_cases discarded with ⟨before, -⟩ | ⟨-, looped, moved, loops, moves, _, rfl⟩
  · rw [beyond] at before
    cases before
  · have cut := discardLoop_discarded laid loops
    have relabelled := moveHeadSack_relabelled moves
    have moved_laid := relabelled.laid (passedFin_laid cut.laid seq)
    refine ⟨⟨moved_laid.sentSize, moved_laid.size, moved_laid.starts, moved_laid.sent,
      moved_laid.app, moved_laid.room⟩, ?_, ?_, ?_⟩
    · change moved.firstByteSeq = seq
      rw [relabelled.firstByteSeq, passedFin]
      split
      · rfl
      · rename_i remains
        rw [cut.firstByteSeq remains, minus_toUInt32, plus, UInt32.add_comm,
          UInt32.sub_add_cancel]
    · change moved.maxBuffer = buffer.maxBuffer
      rw [relabelled.maxBuffer, ← cut.maxBuffer, passedFin]
      split
      · rfl
      · rfl
    · change moved.held = _
      rw [relabelled.held_eq, ← cut.held, passedFin]
      split
      · rfl
      · rfl

end TcpTxBuffer

end FISim.Tcp
