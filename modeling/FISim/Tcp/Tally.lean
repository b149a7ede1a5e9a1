import FISim.Tcp.TxQueue

/-!
What the counters of `TcpTxBuffer` count, and that the operations that mark items count along.
-/

namespace FISim.Tcp

open SequenceNumber32

/-- The sent list with the counters that speak of it. -/
structure Scoreboard where
  items : List TcpTxItem
  sackedOut : UInt32
  lostOut : UInt32
  retrans : UInt32

/-- The sum that `ConsistencyCheck` makes. -/
def tally (flag : TcpTxItem → Bool) (items : List TcpTxItem) : UInt32 :=
  UInt32.ofNat (flagged flag items)

@[simp] theorem tally_nil (flag : TcpTxItem → Bool) : tally flag [] = 0 := rfl

@[simp] theorem tally_cons (flag : TcpTxItem → Bool) (item : TcpTxItem) (rest : List TcpTxItem) :
    tally flag (item :: rest) = (if flag item then item.size else 0) + tally flag rest := by
  rw [tally, flagged_cons, UInt32.ofNat_add]
  split
  · rfl
  · rfl

@[simp] theorem tally_append (flag : TcpTxItem → Bool) (first second : List TcpTxItem) :
    tally flag (first ++ second) = tally flag first + tally flag second := by
  rw [tally, flagged_append, UInt32.ofNat_add]
  rfl

theorem tally_toNat (flag : TcpTxItem → Bool) {items : List TcpTxItem}
    (short : (bytes items).length < 2 ^ 32) : (tally flag items).toNat = flagged flag items := by
  rw [tally, UInt32.toNat_ofNat']
  exact Nat.mod_eq_of_lt (Nat.lt_of_le_of_lt (flagged_le flag items) short)

theorem tally_of_none {flag : TcpTxItem → Bool} {items : List TcpTxItem}
    (none : ∀ item ∈ items, flag item = false) : tally flag items = 0 := by
  induction items with
  | nil => rfl
  | cons item rest ih =>
      rw [tally_cons, none item (List.mem_cons_self),
        ih fun other member => none other (List.mem_cons_of_mem _ member)]
      rfl

theorem tally_of_all {flag : TcpTxItem → Bool} {items : List TcpTxItem}
    (all : ∀ item ∈ items, flag item = true) : tally flag items = getSize (bytes items) := by
  induction items with
  | nil => rfl
  | cons item rest ih =>
      rw [tally_cons, all item (List.mem_cons_self),
        ih fun other member => all other (List.mem_cons_of_mem _ member), bytes_cons,
        getSize_append]
      rfl

theorem tally_perm {flag : TcpTxItem → Bool} {first second : List TcpTxItem}
    (perm : first.Perm second) : tally flag first = tally flag second := by
  induction perm with
  | nil => rfl
  | cons item _ ih => rw [tally_cons, tally_cons, ih]
  | swap first second rest =>
      simp only [tally_cons]
      grind
  | trans _ _ before after => exact before.trans after

def Exclusive (items : List TcpTxItem) : Prop :=
  ∀ item ∈ items, item.sacked = false ∨ item.lost = false

def Plain (item : TcpTxItem) : Prop :=
  item.sacked = false ∧ item.lost = false ∧ item.retrans = false

namespace Scoreboard

structure Exact (board : Scoreboard) : Prop where
  sacked : board.sackedOut = tally TcpTxItem.sacked board.items
  lost : board.lostOut = tally TcpTxItem.lost board.items
  retrans : board.retrans = tally TcpTxItem.retrans board.items
  exclusive : Exclusive board.items

/-- The counters change by as much as the sums. -/
structure Shifts (first second : Scoreboard) : Prop where
  sacked : second.sackedOut + tally TcpTxItem.sacked first.items =
    first.sackedOut + tally TcpTxItem.sacked second.items
  lost : second.lostOut + tally TcpTxItem.lost first.items =
    first.lostOut + tally TcpTxItem.lost second.items
  retrans : second.retrans + tally TcpTxItem.retrans first.items =
    first.retrans + tally TcpTxItem.retrans second.items
  exclusive : Exclusive first.items → Exclusive second.items

theorem Shifts.exact {first second : Scoreboard} (shifts : Shifts first second)
    (exact : Exact first) : Exact second := by
  have sacked := shifts.sacked
  have lost := shifts.lost
  have retrans := shifts.retrans
  rw [exact.sacked] at sacked
  rw [exact.lost] at lost
  rw [exact.retrans] at retrans
  exact ⟨by grind, by grind, by grind, shifts.exclusive exact.exclusive⟩

theorem Shifts.refl (board : Scoreboard) : Shifts board board := ⟨rfl, rfl, rfl, id⟩

theorem Shifts.trans {first second third : Scoreboard} (before : Shifts first second)
    (after : Shifts second third) : Shifts first third := by
  obtain ⟨sacked, lost, retrans, exclusive⟩ := before
  obtain ⟨sackedAfter, lostAfter, retransAfter, exclusiveAfter⟩ := after
  exact ⟨by grind, by grind, by grind, exclusiveAfter ∘ exclusive⟩

theorem Shifts.inside {first second : Scoreboard} (before after : List TcpTxItem)
    (shifts : Shifts first second) :
    Shifts { first with items := before ++ first.items ++ after }
      { second with items := before ++ second.items ++ after } := by
  obtain ⟨sacked, lost, retrans, exclusive⟩ := shifts
  constructor
  · simp only [tally_append]
    grind
  · simp only [tally_append]
    grind
  · simp only [tally_append]
    grind
  · intro apart item member
    rw [List.mem_append, List.mem_append] at member
    rcases member with (inBefore | inside) | inAfter
    · exact apart item (by simp [inBefore])
    · exact exclusive (fun other found => apart other (by simp [found])) item inside
    · exact apart item (by simp [inAfter])

theorem Shifts.perm {first second : Scoreboard} {items marked : List TcpTxItem}
    (shifts : Shifts first second) (before : items.Perm first.items)
    (after : marked.Perm second.items) :
    Shifts { first with items } { second with items := marked } := by
  obtain ⟨sacked, lost, retrans, exclusive⟩ := shifts
  refine ⟨?_, ?_, ?_, ?_⟩
  · simpa only [tally_perm before, tally_perm after] using sacked
  · simpa only [tally_perm before, tally_perm after] using lost
  · simpa only [tally_perm before, tally_perm after] using retrans
  · intro apart item member
    exact exclusive (fun other found => apart other (before.mem_iff.mpr found)) item
      (after.mem_iff.mp member)

end Scoreboard

namespace TcpTxBuffer

def scoreboard (buffer : TcpTxBuffer) : Scoreboard where
  items := buffer.sentList
  sackedOut := buffer.sackedOut
  lostOut := buffer.lostOut
  retrans := buffer.retrans

end TcpTxBuffer

open Scoreboard TcpTxBuffer

/-- What the loops of `Update` keep, on some of the items. -/
def TcpTxBuffer.Sacking.board (sacking : Sacking) (items : List TcpTxItem) (retrans : UInt32) : Scoreboard where
  items := items
  sackedOut := sacking.sackedOut
  lostOut := sacking.lostOut
  retrans := retrans

theorem Scoreboard.Shifts.cons {item marked : TcpTxItem} {items others : List TcpTxItem}
    {sackedOut lostOut retrans sackedOut1 lostOut1 retrans1 sackedOut2 lostOut2 retrans2 : UInt32}
    (head : Shifts ⟨[item], sackedOut, lostOut, retrans⟩
      ⟨[marked], sackedOut1, lostOut1, retrans1⟩)
    (rest : Shifts ⟨items, sackedOut1, lostOut1, retrans1⟩
      ⟨others, sackedOut2, lostOut2, retrans2⟩) :
    Shifts ⟨item :: items, sackedOut, lostOut, retrans⟩
      ⟨marked :: others, sackedOut2, lostOut2, retrans2⟩ := by
  have early := head.inside [] items
  have late := rest.inside [marked] []
  simp only [List.nil_append, List.append_nil, List.cons_append] at early late
  exact early.trans late

theorem sackItem_shifts {begins : SequenceNumber32} {item marked : TcpTxItem}
    {sacking later : Sacking} (retrans : UInt32)
    (sacked : sackItem begins item sacking = some (marked, later)) :
    Shifts (sacking.board [item] retrans) (later.board [marked] retrans) := by
  rw [sackItem] at sacked
  split at sacked
  · split at sacked
    · cases sacked
    · obtain ⟨rfl, rfl⟩ := Prod.mk.inj (Option.some.inj sacked)
      exact Shifts.refl _
  · rename_i unsacked
    rw [Bool.not_eq_true] at unsacked
    obtain ⟨rfl, rfl⟩ := Prod.mk.inj (Option.some.inj sacked)
    constructor
    · simp [Sacking.board, unsacked, TcpTxItem.size]
    · cases lost : item.lost with
      | true =>
          simp [Sacking.board, lost]
      | false => simp [Sacking.board, lost]
    · simp [Sacking.board, TcpTxItem.size]
    · intro _ other member
      rw [List.mem_singleton.mp member]
      exact Or.inr rfl

theorem sackBlock_shifts {block : SackBlock} {begins : SequenceNumber32}
    {items marked : List TcpTxItem} {sacking later : Sacking} (retrans : UInt32)
    (sacked : sackBlock block begins items sacking = some (marked, later)) :
    Shifts (sacking.board items retrans) (later.board marked retrans) := by
  induction items generalizing begins marked sacking with
  | nil =>
      obtain ⟨rfl, rfl⟩ := Prod.mk.inj (Option.some.inj sacked)
      exact Shifts.refl _
  | cons item rest ih =>
      simp only [sackBlock] at sacked
      split at sacked
      · obtain ⟨⟨head, between⟩, first, sacked⟩ := Option.bind_eq_some_iff.mp sacked
        obtain ⟨⟨tail, last⟩, others, result⟩ := Option.bind_eq_some_iff.mp sacked
        obtain ⟨rfl, rfl⟩ := Prod.mk.inj (Option.some.inj result)
        exact (sackItem_shifts retrans first).cons (ih others)
      · split at sacked
        · obtain ⟨rfl, rfl⟩ := Prod.mk.inj (Option.some.inj sacked)
          exact Shifts.refl _
        · obtain ⟨⟨tail, last⟩, others, result⟩ := Option.bind_eq_some_iff.mp sacked
          obtain ⟨rfl, rfl⟩ := Prod.mk.inj (Option.some.inj result)
          exact (Shifts.refl (sacking.board [item] retrans)).cons (ih others)

theorem sackBlocks_shifts {firstByteSeq : SequenceNumber32} {sentSize : UInt32}
    {list : List SackBlock} {items marked : List TcpTxItem} {sacking later : Sacking}
    {outside : Bool} (retrans : UInt32)
    (sacked : sackBlocks firstByteSeq sentSize list items sacking = some (marked, later, outside)) :
    Shifts (sacking.board items retrans) (later.board marked retrans) := by
  induction list generalizing items sacking with
  | nil =>
      obtain ⟨rfl, same⟩ := Prod.mk.inj (Option.some.inj sacked)
      obtain ⟨rfl, -⟩ := Prod.mk.inj same
      exact Shifts.refl _
  | cons block list ih =>
      rw [sackBlocks] at sacked
      split at sacked
      · obtain ⟨rfl, same⟩ := Prod.mk.inj (Option.some.inj sacked)
        obtain ⟨rfl, -⟩ := Prod.mk.inj same
        exact Shifts.refl _
      · obtain ⟨⟨between, inner⟩, first, sacked⟩ := Option.bind_eq_some_iff.mp sacked
        exact (sackBlock_shifts retrans first).trans (ih sacked)

theorem loses {item : TcpTxItem} (unsacked : item.sacked = false) (kept : item.lost = false)
    (sackedOut lostOut retrans : UInt32) :
    Shifts ⟨[item], sackedOut, lostOut, retrans⟩
      ⟨[{ item with lost := true }], sackedOut, lostOut + item.size, retrans⟩ := by
  constructor
  · simp [TcpTxItem.size]
  · simp [kept, TcpTxItem.size]
  · simp [TcpTxItem.size]
  · intro _ other member
    rw [List.mem_singleton.mp member]
    exact Or.inl unsacked

theorem lostLoop_shifts (dupAckThresh : UInt32) (items : List TcpTxItem)
    (sacked sackedOut lostOut retrans : UInt32) :
    Shifts ⟨items, sackedOut, lostOut, retrans⟩
      ⟨(lostLoop dupAckThresh items sacked lostOut).1, sackedOut,
        (lostLoop dupAckThresh items sacked lostOut).2.2, retrans⟩ := by
  induction items generalizing sacked lostOut with
  | nil => exact Shifts.refl _
  | cons item below ih =>
      rw [lostLoop]
      generalize (if item.sacked = true then sacked + 1 else sacked) = count
      dsimp only
      split
      · rename_i found
        exact (loses found.2.1 found.2.2 sackedOut lostOut retrans).cons (ih count _)
      · exact (Shifts.refl ⟨[item], sackedOut, lostOut, retrans⟩).cons (ih count lostOut)

namespace TcpTxBuffer

variable {buffer next : TcpTxBuffer}

theorem updateLostCount_finish_shifts {head : TcpTxItem} {rest : List TcpTxItem}
    {sacked lostOut : UInt32}
    (counted : updateLostCount.finish buffer head rest sacked lostOut = some next)
    (settled : ∃ head, next.sentList.head? = some head ∧ head.sacked = false) :
    Shifts ⟨head :: rest, buffer.sackedOut, lostOut, buffer.retrans⟩ next.scoreboard := by
  rw [updateLostCount.finish] at counted
  obtain ⟨first, isFirst, unsacked⟩ := settled
  split at counted
  · rename_i lose
    obtain rfl := Option.some.inj counted
    obtain rfl := Option.some.inj isFirst
    have headUnsacked : head.sacked = false := unsacked
    exact (loses headUnsacked lose.2 _ _ _).cons (Shifts.refl ⟨rest, _, _, _⟩)
  · obtain rfl := Option.some.inj counted
    exact Shifts.refl _

theorem updateLostCount_shifts (counted : buffer.updateLostCount = some next)
    (settled : ∃ head, next.sentList.head? = some head ∧ head.sacked = false) :
    Shifts buffer.scoreboard next.scoreboard := by
  rw [updateLostCount] at counted
  split at counted
  · rename_i id head rest isId isList
    dsimp only at counted
    rw [scoreboard, isList]
    split at counted
    · exact updateLostCount_finish_shifts counted settled
    · split at counted
      · cases counted
      · rename_i highest others isUpper
        refine Shifts.trans ?_ (updateLostCount_finish_shifts counted settled)
        generalize isLower : rest.takeWhile (fun item => item.id ≠ id) = lower
        have isRest : rest = lower ++ [highest] ++ others := by
          rw [← isLower, List.append_assoc, List.singleton_append, ← isUpper,
            List.takeWhile_append_dropWhile]
        have walked := lostLoop_shifts buffer.dupAckThresh (highest :: lower.reverse) 0
          buffer.sackedOut buffer.lostOut buffer.retrans
        have order : (lower ++ [highest]).Perm (highest :: lower.reverse) := by
          rw [← List.reverse_reverse (lower ++ [highest]), List.reverse_append]
          exact List.reverse_perm _
        have turned := (walked.perm order (List.reverse_perm _)).inside [head] others
        rw [isRest]
        simpa using turned
  · cases counted

theorem update_shifts {list : List SackBlock} {bytesSacked : UInt32}
    (updated : buffer.update list = some (next, bytesSacked)) :
    Shifts buffer.scoreboard next.scoreboard := by
  obtain ⟨items, sacking, outside, sacked, result⟩ := update_cases updated
  have marked := sackBlocks_shifts buffer.retrans sacked
  rcases result with rfl | ⟨counted, settled⟩
  · exact marked
  · exact marked.trans (updateLostCount_shifts counted settled)

/-- The first item that is not acknowledged is not lost either. -/
def Fresh (items : List TcpTxItem) : Prop :=
  ∀ item ∈ (items.dropWhile TcpTxItem.sacked).head?, item.lost = false

instance (items : List TcpTxItem) : Decidable (Fresh items) :=
  inferInstanceAs (Decidable (∀ item ∈ (items.dropWhile TcpTxItem.sacked).head?, item.lost = false))

theorem addRenoSack_cases (added : buffer.addRenoSack = some next) :
    ∃ head rest, buffer.sentList = head :: rest ∧
      (rest.dropWhile TcpTxItem.sacked = [] ∧ next = { buffer with renoSack := true } ∨
        ∃ item others, rest.dropWhile TcpTxItem.sacked = item :: others ∧ item.sacked = false ∧
          next = { buffer with
            renoSack := true
            sentList := head ::
              (rest.takeWhile TcpTxItem.sacked ++ { item with sacked := true } :: others)
            sackedOut := buffer.sackedOut + item.size
            highestSack := (.item item.id, item.startSeq) }) := by
  rw [addRenoSack] at added
  split at added
  · cases added
  · rename_i head rest isList
    refine ⟨head, rest, isList, ?_⟩
    split at added
    · cases added
    · dsimp only at added
      split at added
      · rename_i none
        exact Or.inl ⟨none, (Option.some.inj added).symm⟩
      · rename_i item others isRest
        refine Or.inr ⟨item, others, isRest, ?_, (Option.some.inj added).symm⟩
        have first := List.head?_dropWhile_not TcpTxItem.sacked rest
        rw [isRest] at first
        simpa using first

theorem addRenoSack_shifts (added : buffer.addRenoSack = some next)
    (fresh : Fresh buffer.sentList.tail) : Shifts buffer.scoreboard next.scoreboard := by
  obtain ⟨head, rest, isList, ⟨-, rfl⟩ | ⟨item, others, isRest, unsacked, rfl⟩⟩ :=
    addRenoSack_cases added
  · exact Shifts.refl _
  · rw [isList, List.tail_cons, Fresh, isRest] at fresh
    have kept : item.lost = false := fresh item rfl
    have marks : Shifts ⟨[item], buffer.sackedOut, buffer.lostOut, buffer.retrans⟩
        ⟨[{ item with sacked := true }], buffer.sackedOut + item.size, buffer.lostOut,
          buffer.retrans⟩ := by
      constructor
      · simp [unsacked, TcpTxItem.size]
      · simp [TcpTxItem.size]
      · simp [TcpTxItem.size]
      · intro _ other member
        rw [List.mem_singleton.mp member]
        exact Or.inr kept
    have placed := marks.inside (head :: rest.takeWhile TcpTxItem.sacked) others
    rw [scoreboard, isList]
    nth_rewrite 1 [← List.takeWhile_append_dropWhile (p := TcpTxItem.sacked) (l := rest)]
    rw [isRest]
    simp only [List.cons_append, List.append_assoc, List.nil_append] at placed
    exact placed

theorem addRenoSack_fresh (added : buffer.addRenoSack = some next)
    (exclusive : Exclusive next.sentList) : Fresh buffer.sentList.tail := by
  obtain ⟨head, rest, isList, ⟨none, -⟩ | ⟨item, others, isRest, unsacked, rfl⟩⟩ :=
    addRenoSack_cases added
  · rw [isList, List.tail_cons, Fresh, none]
    exact nofun
  · rw [isList, List.tail_cons, Fresh, isRest]
    intro other member
    obtain rfl := Option.some.inj member
    exact (exclusive { item with sacked := true } (by simp)).resolve_left (by simp)

theorem markHeadAsLost_shifts (buffer : TcpTxBuffer) :
    Shifts buffer.scoreboard buffer.markHeadAsLost.scoreboard := by
  rw [markHeadAsLost]
  split
  · exact Shifts.refl _
  · rename_i head rest isList
    rw [scoreboard, isList]
    refine Shifts.cons ?_ (Shifts.refl ⟨rest, _, _, _⟩)
    constructor
    · cases sacked : head.sacked with
      | true => simp [sacked]
      | false => simp [sacked]
    · cases lost : head.lost with
      | true => simp [lost, TcpTxItem.size]
      | false => simp [lost, TcpTxItem.size]
    · cases retrans : head.retrans with
      | true => simp [retrans]
      | false => simp [retrans]
    · intro _ other member
      rw [List.mem_singleton.mp member]
      exact Or.inl rfl

theorem deleteRetransmittedFlagFromHead_shifts
    (deleted : buffer.deleteRetransmittedFlagFromHead = some next) :
    Shifts buffer.scoreboard next.scoreboard := by
  rw [deleteRetransmittedFlagFromHead] at deleted
  split at deleted
  · obtain rfl := Option.some.inj deleted
    exact Shifts.refl _
  · split at deleted
    · cases deleted
    · rename_i head rest isList
      split at deleted
      · rename_i marked
        obtain rfl := Option.some.inj deleted
        rw [scoreboard, isList]
        refine Shifts.cons ?_ (Shifts.refl ⟨rest, _, _, _⟩)
        constructor
        · simp [TcpTxItem.size]
        · simp [TcpTxItem.size]
        · simp [marked]
        · intro apart other member
          rw [List.mem_singleton.mp member]
          exact apart head (List.mem_singleton_self _)
      · obtain rfl := Option.some.inj deleted
        exact Shifts.refl _

/-- What `ConsistencyCheck` says, with the items that wait for their first transmission. -/
structure Tallied (buffer : TcpTxBuffer) : Prop where
  exact : Exact buffer.scoreboard
  plain : ∀ item ∈ buffer.appList, Plain item

theorem Tallied.shifted (tallied : Tallied buffer)
    (shifts : Shifts buffer.scoreboard next.scoreboard) (same : next.appList = buffer.appList) :
    Tallied next :=
  ⟨shifts.exact tallied.exact, same ▸ tallied.plain⟩

theorem add_tallied (tallied : Tallied buffer) (p : Packet) : Tallied (buffer.add p).1 := by
  rw [add]
  split
  · split
    · refine ⟨tallied.exact, ?_⟩
      intro item member
      rcases List.mem_append.mp member with inside | last
      · exact tallied.plain item inside
      · rw [List.mem_singleton.mp last]
        exact ⟨rfl, rfl, rfl⟩
    · exact tallied
  · exact tallied

theorem resetRenoSack_tallied (tallied : Tallied buffer) : Tallied buffer.resetRenoSack := by
  have same : ∀ flag : TcpTxItem → Bool, (∀ item, flag { item with sacked := false } = flag item) →
      tally flag buffer.resetRenoSack.sentList = tally flag buffer.sentList := by
    intro flag keeps
    rw [resetRenoSack]
    dsimp only
    induction buffer.sentList with
    | nil => rfl
    | cons item rest ih =>
        rw [List.map_cons, tally_cons, tally_cons, ih, keeps]
        rfl
  refine ⟨⟨?_, ?_, ?_, ?_⟩, tallied.plain⟩
  · refine (tally_of_none fun item member => ?_).symm
    obtain ⟨old, -, rfl⟩ := List.mem_map.mp member
    rfl
  · exact tallied.exact.lost.trans (same TcpTxItem.lost fun _ => rfl).symm
  · exact tallied.exact.retrans.trans (same TcpTxItem.retrans fun _ => rfl).symm
  · intro item member
    obtain ⟨old, -, rfl⟩ := List.mem_map.mp member
    exact Or.inl rfl

theorem resetSentList_tallied (tallied : Tallied buffer) : Tallied buffer.resetSentList := by
  refine ⟨⟨rfl, rfl, rfl, fun item member => absurd member (List.not_mem_nil)⟩, ?_⟩
  intro item member
  rcases List.mem_append.mp member with moved | inside
  · obtain ⟨old, -, rfl⟩ := List.mem_map.mp moved
    exact ⟨rfl, rfl, rfl⟩
  · exact tallied.plain item inside

theorem resetLastSegmentSent_tallied (tallied : Tallied buffer)
    (plain : ∀ item ∈ buffer.sentList.getLast?, Plain item) :
    Tallied buffer.resetLastSegmentSent := by
  rw [resetLastSegmentSent]
  split
  · exact tallied
  · rename_i item last
    have isList : buffer.sentList = buffer.sentList.dropLast ++ [item] :=
      (List.dropLast_append_getLast? item last).symm
    obtain ⟨unsacked, kept, fresh⟩ := plain item last
    have exact := tallied.exact
    rw [scoreboard, isList] at exact
    refine ⟨⟨?_, ?_, ?_, ?_⟩, ?_⟩
    · simpa [unsacked, scoreboard] using exact.sacked
    · simpa [kept, scoreboard] using exact.lost
    · simpa [fresh, scoreboard] using exact.retrans
    · exact fun other member => exact.exclusive other (List.mem_append_left _ member)
    · intro other member
      rcases List.mem_cons.mp member with rfl | inside
      · exact ⟨unsacked, kept, fresh⟩
      · exact tallied.plain other inside

theorem loseItems_reset (items : List TcpTxItem) (lostOut : UInt32) :
    (loseItems true items lostOut).2 = lostOut ∧
      ∀ item ∈ (loseItems true items lostOut).1,
        item.sacked = false ∧ item.lost = true ∧ item.retrans = false := by
  induction items generalizing lostOut with
  | nil => exact ⟨rfl, fun item member => absurd member (List.not_mem_nil)⟩
  | cons item rest ih =>
      refine ⟨(ih lostOut).1, ?_⟩
      intro other member
      rcases List.mem_cons.mp member with rfl | inside
      · exact ⟨rfl, rfl, rfl⟩
      · exact (ih lostOut).2 other inside

/-- What `SetSentListLost` makes of an item when the marks stay. -/
structure Kept (item : TcpTxItem) (lostOut : UInt32) (marked : TcpTxItem) (later : UInt32) :
    Prop where
  size : marked.size = item.size
  sacked : marked.sacked = item.sacked
  retrans : marked.retrans = false
  lostOut : later = lostOut + if marked.lost then marked.size else 0
  exclusive : item.sacked = false ∨ item.lost = false → marked.sacked = false ∨ marked.lost = false

theorem loseItem_kept (item : TcpTxItem) (lostOut : UInt32) :
    Kept item lostOut (loseItem false item lostOut).1 (loseItem false item lostOut).2 := by
  rw [loseItem]
  simp only [Bool.false_eq_true, if_false]
  split
  · rename_i lost
    exact ⟨rfl, rfl, rfl, by rw [if_pos lost]; rfl, id⟩
  · rename_i kept
    split
    · rename_i unsacked
      exact ⟨rfl, rfl, rfl, rfl, fun _ => Or.inl unsacked⟩
    · rw [Bool.not_eq_true] at kept
      exact ⟨rfl, rfl, rfl, by simp [kept], id⟩

theorem loseItems_kept (items : List TcpTxItem) (lostOut : UInt32) :
    tally TcpTxItem.sacked (loseItems false items lostOut).1 = tally TcpTxItem.sacked items ∧
      (loseItems false items lostOut).2 =
        lostOut + tally TcpTxItem.lost (loseItems false items lostOut).1 ∧
      (∀ item ∈ (loseItems false items lostOut).1, item.retrans = false) ∧
      (Exclusive items → Exclusive (loseItems false items lostOut).1) := by
  induction items generalizing lostOut with
  | nil =>
      exact ⟨rfl, (UInt32.add_zero _).symm, fun item member => absurd member (List.not_mem_nil), id⟩
  | cons item rest ih =>
      have head := loseItem_kept item lostOut
      obtain ⟨sacked, lost, retrans, exclusive⟩ := ih (loseItem false item lostOut).2
      simp only [loseItems]
      refine ⟨?_, ?_, ?_, ?_⟩
      · rw [tally_cons, tally_cons, sacked, head.sacked, head.size]
      · rw [lost, tally_cons, head.lostOut, UInt32.add_assoc]
      · intro other member
        rcases List.mem_cons.mp member with rfl | inside
        · exact head.retrans
        · exact retrans other inside
      · intro apart other member
        rcases List.mem_cons.mp member with rfl | inside
        · exact head.exclusive (apart item (List.mem_cons_self))
        · exact exclusive (fun old found => apart old (List.mem_cons_of_mem _ found)) other inside

theorem setSentListLost_tallied {resetSack : Bool} (laid : Laid buffer) (tallied : Tallied buffer)
    (lost : buffer.setSentListLost resetSack = some next) : Tallied next := by
  cases resetSack with
  | true =>
      simp only [setSentListLost, if_true] at lost
      split at lost
      · obtain rfl := Option.some.inj lost
        obtain ⟨same, flags⟩ := loseItems_reset buffer.sentList buffer.sentSize
        refine ⟨⟨?_, ?_, ?_, fun item member => Or.inl (flags item member).1⟩, tallied.plain⟩
        · exact (tally_of_none fun item member => (flags item member).1).symm
        · rw [scoreboard]
          dsimp only
          rw [same, tally_of_all fun item member => (flags item member).2.1,
            bytes_of_layout (loseItems_layout true _ _), laid.sentSize_eq]
        · exact (tally_of_none fun item member => (flags item member).2.2).symm
      · cases lost
  | false =>
      simp only [setSentListLost, Bool.false_eq_true, if_false] at lost
      split at lost
      · obtain rfl := Option.some.inj lost
        obtain ⟨sacked, counted, retrans, exclusive⟩ := loseItems_kept buffer.sentList 0
        refine ⟨⟨?_, ?_, ?_, exclusive tallied.exact.exclusive⟩, tallied.plain⟩
        · exact tallied.exact.sacked.trans sacked.symm
        · exact counted.trans (UInt32.zero_add _)
        · exact (tally_of_none retrans).symm
      · cases lost

end TcpTxBuffer

end FISim.Tcp
