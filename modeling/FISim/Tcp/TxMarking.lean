import FISim.Tcp.TxCopying

/-!
The operations of `TcpTxBuffer` that mark items: they leave the bytes where they are.
-/

namespace FISim.Tcp

open SequenceNumber32

namespace TcpTxBuffer

variable {buffer next : TcpTxBuffer}

theorem markHeadAsLost_relabelled (buffer : TcpTxBuffer) :
    Relabelled buffer buffer.markHeadAsLost := by
  rw [markHeadAsLost]
  split
  · exact Relabelled.refl _
  · rename_i head rest isList
    exact ⟨rfl, rfl, rfl, rfl, rfl, by rw [isList]; rfl⟩

theorem addRenoSack_relabelled (added : buffer.addRenoSack = some next) :
    Relabelled buffer next := by
  rw [addRenoSack] at added
  split at added
  · cases added
  · rename_i head rest isList
    split at added
    · cases added
    · dsimp only at added
      split at added
      · obtain rfl := Option.some.inj added
        exact ⟨rfl, rfl, rfl, rfl, rfl, rfl⟩
      · rename_i item others isRest
        obtain rfl := Option.some.inj added
        refine ⟨rfl, rfl, rfl, rfl, rfl, ?_⟩
        rw [isList]
        nth_rewrite 2 [← List.takeWhile_append_dropWhile (p := TcpTxItem.sacked) (l := rest)]
        simp [isRest, layout]

theorem resetRenoSack_relabelled (buffer : TcpTxBuffer) :
    Relabelled buffer buffer.resetRenoSack :=
  ⟨rfl, rfl, rfl, rfl, rfl, by simp [resetRenoSack, layout, Function.comp_def]⟩

theorem deleteRetransmittedFlagFromHead_relabelled
    (deleted : buffer.deleteRetransmittedFlagFromHead = some next) : Relabelled buffer next := by
  rw [deleteRetransmittedFlagFromHead] at deleted
  split at deleted
  · obtain rfl := Option.some.inj deleted
    exact Relabelled.refl _
  · split at deleted
    · cases deleted
    · rename_i head rest isList
      split at deleted
      · obtain rfl := Option.some.inj deleted
        exact ⟨rfl, rfl, rfl, rfl, rfl, by rw [isList]; rfl⟩
      · obtain rfl := Option.some.inj deleted
        exact Relabelled.refl _

theorem loseItems_layout (resetSack : Bool) (items : List TcpTxItem) (lostOut : UInt32) :
    (loseItems resetSack items lostOut).1.map layout = items.map layout := by
  induction items generalizing lostOut with
  | nil => rfl
  | cons item rest ih =>
      have same : layout (loseItem resetSack item lostOut).1 = layout item := by
        rw [loseItem]
        repeat' split
        all_goals rfl
      simp only [loseItems, List.map_cons, same, ih]

theorem setSentListLost_relabelled {resetSack : Bool}
    (lost : buffer.setSentListLost resetSack = some next) : Relabelled buffer next := by
  cases resetSack with
  | true =>
      simp only [setSentListLost, if_true] at lost
      split at lost
      · obtain rfl := Option.some.inj lost
        exact ⟨rfl, rfl, rfl, rfl, rfl, loseItems_layout true _ _⟩
      · cases lost
  | false =>
      simp only [setSentListLost, Bool.false_eq_true, if_false] at lost
      split at lost
      · obtain rfl := Option.some.inj lost
        exact ⟨rfl, rfl, rfl, rfl, rfl, loseItems_layout false _ _⟩
      · cases lost

theorem sackItem_layout {begins : SequenceNumber32} {item marked : TcpTxItem}
    {sacking later : Sacking} (sacked : sackItem begins item sacking = some (marked, later)) :
    layout marked = layout item := by
  rw [sackItem] at sacked
  split at sacked
  · split at sacked
    · cases sacked
    · obtain ⟨rfl, rfl⟩ := Prod.mk.inj (Option.some.inj sacked)
      rfl
  · obtain ⟨rfl, rfl⟩ := Prod.mk.inj (Option.some.inj sacked)
    rfl

theorem sackBlock_layout {block : SackBlock} {begins : SequenceNumber32}
    {items marked : List TcpTxItem} {sacking later : Sacking}
    (sacked : sackBlock block begins items sacking = some (marked, later)) :
    marked.map layout = items.map layout := by
  induction items generalizing begins marked sacking with
  | nil =>
      obtain ⟨rfl, rfl⟩ := Prod.mk.inj (Option.some.inj sacked)
      rfl
  | cons item rest ih =>
      simp only [sackBlock] at sacked
      split at sacked
      · obtain ⟨⟨head, between⟩, first, sacked⟩ := Option.bind_eq_some_iff.mp sacked
        obtain ⟨⟨tail, last⟩, others, result⟩ := Option.bind_eq_some_iff.mp sacked
        obtain ⟨rfl, rfl⟩ := Prod.mk.inj (Option.some.inj result)
        rw [List.map_cons, List.map_cons, sackItem_layout first, ih others]
      · split at sacked
        · obtain ⟨rfl, rfl⟩ := Prod.mk.inj (Option.some.inj sacked)
          rfl
        · obtain ⟨⟨tail, last⟩, others, result⟩ := Option.bind_eq_some_iff.mp sacked
          obtain ⟨rfl, rfl⟩ := Prod.mk.inj (Option.some.inj result)
          rw [List.map_cons, List.map_cons, ih others]

theorem sackBlocks_layout {firstByteSeq : SequenceNumber32} {sentSize : UInt32}
    {list : List SackBlock} {items marked : List TcpTxItem} {sacking later : Sacking}
    {outside : Bool}
    (sacked : sackBlocks firstByteSeq sentSize list items sacking = some (marked, later, outside)) :
    marked.map layout = items.map layout := by
  induction list generalizing items sacking with
  | nil =>
      obtain ⟨rfl, -⟩ := Prod.mk.inj (Option.some.inj sacked)
      rfl
  | cons block list ih =>
      rw [sackBlocks] at sacked
      split at sacked
      · obtain ⟨rfl, -⟩ := Prod.mk.inj (Option.some.inj sacked)
        rfl
      · obtain ⟨⟨between, inner⟩, first, sacked⟩ := Option.bind_eq_some_iff.mp sacked
        exact (ih sacked).trans (sackBlock_layout first)

theorem lostLoop_layout (dupAckThresh : UInt32) (items : List TcpTxItem)
    (sacked lostOut : UInt32) :
    (lostLoop dupAckThresh items sacked lostOut).1.map layout = items.map layout := by
  induction items generalizing sacked lostOut with
  | nil => rfl
  | cons item below ih =>
      rw [lostLoop]
      generalize (if item.sacked = true then sacked + 1 else sacked) = count
      dsimp only
      split
      · rw [List.map_cons, List.map_cons, ih]
        rfl
      · rw [List.map_cons, List.map_cons, ih]

theorem updateLostCount_finish_relabelled {head : TcpTxItem} {rest others : List TcpTxItem}
    {sacked lostOut : UInt32} (isList : buffer.sentList = head :: rest)
    (same : others.map layout = rest.map layout)
    (counted : updateLostCount.finish buffer head others sacked lostOut = some next) :
    Relabelled buffer next := by
  rw [updateLostCount.finish] at counted
  split at counted
  · obtain rfl := Option.some.inj counted
    exact ⟨rfl, rfl, rfl, rfl, rfl, by rw [isList, List.map_cons, List.map_cons, same]; rfl⟩
  · obtain rfl := Option.some.inj counted
    exact ⟨rfl, rfl, rfl, rfl, rfl, by rw [isList, List.map_cons, List.map_cons, same]⟩

theorem updateLostCount_relabelled (counted : buffer.updateLostCount = some next) :
    Relabelled buffer next := by
  rw [updateLostCount] at counted
  split at counted
  · rename_i id head rest isId isList
    dsimp only at counted
    split at counted
    · exact updateLostCount_finish_relabelled isList rfl counted
    · split at counted
      · cases counted
      · rename_i highest others isUpper
        refine updateLostCount_finish_relabelled isList ?_ counted
        rw [List.map_append, List.map_reverse, lostLoop_layout]
        nth_rewrite 2 [← List.takeWhile_append_dropWhile (p := fun item => item.id ≠ id) (l := rest)]
        rw [isUpper]
        simp
  · cases counted

def sackedBy (buffer : TcpTxBuffer) (items : List TcpTxItem) (sacking : Sacking) : TcpTxBuffer :=
  { buffer with
    sentList := items
    lostOut := sacking.lostOut
    sackedOut := sacking.sackedOut
    highestSack := sacking.highestSack }

theorem update_cases {list : List SackBlock} {bytesSacked : UInt32}
    (updated : buffer.update list = some (next, bytesSacked)) :
    ∃ items sacking outside,
      sackBlocks buffer.firstByteSeq buffer.sentSize list buffer.sentList {
        lostOut := buffer.lostOut
        sackedOut := buffer.sackedOut
        bytesSacked := 0
        highestSack := buffer.highestSack } = some (items, sacking, outside) ∧
      (next = buffer.sackedBy items sacking ∨
        (buffer.sackedBy items sacking).updateLostCount = some next ∧
          ∃ head, next.sentList.head? = some head ∧ head.sacked = false) := by
  obtain ⟨⟨items, sacking, outside⟩, sacked, updated⟩ := Option.bind_eq_some_iff.mp updated
  refine ⟨items, sacking, outside, sacked, ?_⟩
  dsimp only at updated
  split at updated
  · obtain ⟨rfl, -⟩ := Prod.mk.inj (Option.some.inj updated)
    exact Or.inl rfl
  · split at updated
    · split at updated
      · cases updated
      · obtain ⟨counted, counts, updated⟩ := Option.bind_eq_some_iff.mp updated
        obtain ⟨head, isHead, updated⟩ := Option.bind_eq_some_iff.mp updated
        split at updated
        · rename_i settled
          obtain ⟨rfl, -⟩ := Prod.mk.inj (Option.some.inj updated)
          exact Or.inr ⟨counts, head, isHead, settled.1⟩
        · cases updated
    · obtain ⟨counted, counts, updated⟩ := Option.bind_eq_some_iff.mp updated
      obtain ⟨head, -, updated⟩ := Option.bind_eq_some_iff.mp updated
      split at updated
      · obtain ⟨rfl, -⟩ := Prod.mk.inj (Option.some.inj updated)
        exact Or.inl (Option.some.inj counts).symm
      · cases updated

theorem update_relabelled {list : List SackBlock} {bytesSacked : UInt32}
    (updated : buffer.update list = some (next, bytesSacked)) : Relabelled buffer next := by
  obtain ⟨items, sacking, outside, sacked, result⟩ := update_cases updated
  have marked : Relabelled buffer (buffer.sackedBy items sacking) :=
    ⟨rfl, rfl, rfl, rfl, rfl, sackBlocks_layout sacked⟩
  rcases result with rfl | ⟨counted, -⟩
  · exact marked
  · exact marked.trans (updateLostCount_relabelled counted)

theorem resetSentList_rearranged (laid : Laid buffer) :
    Rearranged buffer buffer.resetSentList := by
  have same : bytes (buffer.sentList.map fun item =>
      { item with retrans := false, sacked := false, lost := false }) = bytes buffer.sentList := by
    rw [bytes, List.flatMap_map]
    rfl
  have held : buffer.resetSentList.held = buffer.held := by
    rw [held, resetSentList, bytes_nil, List.nil_append, bytes_append, same, held]
  refine ⟨rfl, rfl, rfl, held, ?_⟩
  constructor
  · rfl
  · rw [held]
    exact laid.size
  · trivial
  · exact fun item member => absurd member (List.not_mem_nil)
  · intro item member
    rcases List.mem_append.mp member with moved | inside
    · obtain ⟨old, found, rfl⟩ := List.mem_map.mp moved
      exact laid.sent old found
    · exact laid.app item inside
  · exact laid.room

theorem resetLastSegmentSent_rearranged (laid : Laid buffer) :
    Rearranged buffer buffer.resetLastSegmentSent := by
  rw [resetLastSegmentSent]
  split
  · exact Rearranged.refl laid
  · rename_i item last
    have isList : buffer.sentList = buffer.sentList.dropLast ++ [item] :=
      (List.dropLast_append_getLast? item last).symm
    generalize buffer.sentList.dropLast = sent at isList
    have sentSize := laid.sentSize
    have starts := laid.starts
    have filled := laid.sent
    have short := laid.sentShort
    have held : bytes sent ++ bytes (item :: buffer.appList) = buffer.held := by
      rw [held, isList]
      simp
    rw [isList] at starts filled
    rw [isList, bytes_append, bytes_cons, bytes_nil] at sentSize short
    simp only [List.length_append, List.length_nil] at sentSize short
    have size := size_toNat item (by omega)
    refine ⟨rfl, rfl, rfl, held, ?_⟩
    constructor
    · dsimp only
      rw [UInt32.toNat_sub_of_le _ _ (by rw [UInt32.le_iff_toNat_le]; omega)]
      omega
    · rw [TcpTxBuffer.held, held]
      exact laid.size
    · exact ((starts_append _).mp starts).1
    · exact fun other member => filled other (List.mem_append_left _ member)
    · intro other member
      rcases List.mem_cons.mp member with rfl | inside
      · exact filled other (by simp)
      · exact laid.app other inside
    · exact laid.room

end TcpTxBuffer

end FISim.Tcp
