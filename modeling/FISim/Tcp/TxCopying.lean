import FISim.Tcp.TxEditing

/-!
The bytes of the two lists of `TcpTxBuffer`, and what `CopyFromSequence` does with them.
-/

namespace FISim.Tcp

open SequenceNumber32

/-- What an operation on flags leaves as it is. -/
def layout (item : TcpTxItem) : Packet × SequenceNumber32 := (item.packet, item.startSeq)

theorem bytes_eq_layout (items : List TcpTxItem) :
    bytes items = (items.map layout).flatMap Prod.fst := by
  rw [List.flatMap_map]
  rfl

theorem bytes_of_layout {first second : List TcpTxItem}
    (same : second.map layout = first.map layout) : bytes second = bytes first := by
  rw [bytes_eq_layout, bytes_eq_layout, same]

theorem filled_of_layout {first second : List TcpTxItem}
    (same : second.map layout = first.map layout) (filled : Filled first) : Filled second := by
  intro item member
  have inside : layout item ∈ first.map layout := by
    rw [← same]
    exact List.mem_map_of_mem member
  obtain ⟨old, found, alike⟩ := List.mem_map.mp inside
  rw [← show old.packet = item.packet from congrArg Prod.fst alike]
  exact filled old found

theorem starts_of_layout {first second : List TcpTxItem}
    (same : second.map layout = first.map layout) {seq : SequenceNumber32}
    (starts : Starts seq first) : Starts seq second := by
  induction first generalizing second seq with
  | nil =>
      rw [List.map_nil, List.map_eq_nil_iff] at same
      rw [same]
      trivial
  | cons old olds ih =>
      rw [List.map_cons] at same
      obtain ⟨item, items, rfl, alike, others⟩ := List.map_eq_cons_iff.mp same
      obtain ⟨packet, startSeq⟩ := Prod.mk.inj alike
      rw [Starts, TcpTxItem.size, packet, startSeq]
      exact ⟨starts.1, ih others starts.2⟩

theorem layout_set {items : List TcpTxItem} {index : ℕ} {item other : TcpTxItem}
    (here : items[index]? = some item) (alike : layout other = layout item) :
    (items.set index other).map layout = items.map layout := by
  obtain ⟨bound, isItem⟩ := List.getElem?_eq_some_iff.mp here
  rw [List.map_set, alike, ← isItem, ← List.getElem_map layout (h := by simpa using bound),
    List.set_getElem_self]

namespace TcpTxBuffer

def held (buffer : TcpTxBuffer) : List UInt8 := bytes buffer.sentList ++ bytes buffer.appList

structure Laid (buffer : TcpTxBuffer) : Prop where
  sentSize : buffer.sentSize.toNat = (bytes buffer.sentList).length
  size : buffer.size.toNat = buffer.held.length
  starts : Starts buffer.firstByteSeq buffer.sentList
  sent : Filled buffer.sentList
  app : Filled buffer.appList
  room : buffer.size ≤ buffer.maxBuffer

/-- The same bytes at the same sequence numbers, perhaps in other items. -/
structure Rearranged (first second : TcpTxBuffer) : Prop where
  firstByteSeq : second.firstByteSeq = first.firstByteSeq
  size : second.size = first.size
  maxBuffer : second.maxBuffer = first.maxBuffer
  held : second.held = first.held
  laid : Laid second

structure Relabelled (first second : TcpTxBuffer) : Prop where
  firstByteSeq : second.firstByteSeq = first.firstByteSeq
  size : second.size = first.size
  sentSize : second.sentSize = first.sentSize
  maxBuffer : second.maxBuffer = first.maxBuffer
  appList : second.appList = first.appList
  sentList : second.sentList.map layout = first.sentList.map layout

variable {buffer first second third : TcpTxBuffer}

theorem Relabelled.refl (buffer : TcpTxBuffer) : Relabelled buffer buffer :=
  ⟨rfl, rfl, rfl, rfl, rfl, rfl⟩

theorem Relabelled.trans (before : Relabelled first second) (after : Relabelled second third) :
    Relabelled first third :=
  ⟨after.firstByteSeq.trans before.firstByteSeq, after.size.trans before.size,
    after.sentSize.trans before.sentSize, after.maxBuffer.trans before.maxBuffer,
    after.appList.trans before.appList, after.sentList.trans before.sentList⟩

theorem Relabelled.held_eq (relabelled : Relabelled first second) : second.held = first.held := by
  rw [held, held, bytes_of_layout relabelled.sentList, relabelled.appList]

theorem Relabelled.laid (relabelled : Relabelled first second) (laid : Laid first) :
    Laid second := by
  constructor
  · rw [relabelled.sentSize, laid.sentSize, bytes_of_layout relabelled.sentList]
  · rw [relabelled.size, laid.size, relabelled.held_eq]
  · rw [relabelled.firstByteSeq]
    exact starts_of_layout relabelled.sentList laid.starts
  · exact filled_of_layout relabelled.sentList laid.sent
  · rw [relabelled.appList]
    exact laid.app
  · rw [relabelled.size, relabelled.maxBuffer]
    exact laid.room

theorem Relabelled.rearranged (relabelled : Relabelled first second) (laid : Laid first) :
    Rearranged first second :=
  ⟨relabelled.firstByteSeq, relabelled.size, relabelled.maxBuffer, relabelled.held_eq,
    relabelled.laid laid⟩

theorem Rearranged.refl (laid : Laid buffer) : Rearranged buffer buffer :=
  ⟨rfl, rfl, rfl, rfl, laid⟩

theorem Rearranged.trans (before : Rearranged first second) (after : Rearranged second third) :
    Rearranged first third :=
  ⟨after.firstByteSeq.trans before.firstByteSeq, after.size.trans before.size,
    after.maxBuffer.trans before.maxBuffer, after.held.trans before.held, after.laid⟩

theorem Laid.short (laid : Laid buffer) : buffer.held.length < 2 ^ 32 := by
  rw [← laid.size]
  exact buffer.size.toNat_lt

theorem Laid.sentShort (laid : Laid buffer) : (bytes buffer.sentList).length < 2 ^ 32 := by
  rw [← laid.sentSize]
  exact buffer.sentSize.toNat_lt

theorem Laid.appShort (laid : Laid buffer) : (bytes buffer.appList).length < 2 ^ 32 := by
  have short := laid.short
  rw [held, List.length_append] at short
  omega

theorem Laid.sentSize_eq (laid : Laid buffer) :
    buffer.sentSize = getSize (bytes buffer.sentList) := by
  rw [getSize, ← laid.sentSize, UInt32.ofNat_toNat]

end TcpTxBuffer

theorem length_ne_zero {items : List TcpTxItem} {item : TcpTxItem} (filled : Filled items)
    (member : item ∈ items) : item.packet.length ≠ 0 :=
  fun empty => filled item member (List.length_eq_zero_iff.mp empty)

theorem min_size (first second : UInt32) :
    min first second = if first ≤ second then first else second := rfl

theorem min_size_le (first second : UInt32) : min first second ≤ first := by
  rw [min_size]
  split
  · exact UInt32.le_refl _
  · rename_i smaller
    exact UInt32.le_of_lt (UInt32.not_le.mp smaller)

theorem transmittedSize_le (numBytes : UInt32) (seq : SequenceNumber32) (items : List TcpTxItem) :
    transmittedSize numBytes seq items ≤ numBytes := by
  induction items with
  | nil => exact UInt32.le_refl _
  | cons item rest ih =>
      rw [transmittedSize.eq_def]
      dsimp only
      split
      · split
        · exact min_size_le _ _
        · split
          · exact min_size_le _ _
          · exact min_size_le _ _
      · exact ih

theorem transmittedSize_ne_zero {numBytes : UInt32} {items : List TcpTxItem}
    (seq : SequenceNumber32) (positive : numBytes ≠ 0) (filled : Filled items)
    (short : (bytes items).length < 2 ^ 32) : transmittedSize numBytes seq items ≠ 0 := by
  have least : ∀ size : UInt32, size ≠ 0 → min numBytes size ≠ 0 := by
    intro size large
    rw [min_size]
    split
    · exact positive
    · exact large
  induction items with
  | nil => exact positive
  | cons item rest ih =>
      have some_bytes := length_ne_zero filled (List.mem_cons_self)
      rw [bytes_cons, List.length_append] at short
      have size := size_toNat item (by omega)
      have itemSize : item.size ≠ 0 := by
        intro zero
        rw [zero] at size
        exact some_bytes size.symm
      rw [transmittedSize.eq_def]
      dsimp only
      split
      · cases rest with
        | nil => exact least _ itemSize
        | cons next others =>
            rw [bytes_cons, List.length_append] at short
            dsimp only
            split
            · refine least _ fun zero => ?_
              have sum := congrArg UInt32.toNat zero
              rw [UInt32.toNat_add, size, size_toNat next (by omega), UInt32.toNat_zero] at sum
              omega
            · exact least _ itemSize
      · exact ih (fun other member => filled other (List.mem_cons_of_mem _ member)) (by omega)

namespace TcpTxBuffer

variable {buffer first second third next : TcpTxBuffer} {numBytes s : UInt32}
variable {seq : SequenceNumber32} {index : ℕ} {now : Int64}

theorem getNewSegment_cases (laid : Laid buffer) (positive : s ≠ 0)
    (got : buffer.getNewSegment s = some (next, index)) :
    ∃ item rest retrans made,
      Recut ⟨buffer.appList, buffer.retrans, buffer.made⟩ ⟨item :: rest, retrans, made⟩ ∧
      item.packet.length ≤ s.toNat ∧ index = buffer.sentList.length ∧
      next = { buffer with
        appList := rest
        sentList := buffer.sentList ++
          [{ item with startSeq := buffer.firstByteSeq.plus buffer.sentSize }]
        sentSize := buffer.sentSize + item.size
        retrans, made } := by
  obtain ⟨⟨editing, place⟩, edited, got⟩ := Option.bind_eq_some_iff.mp got
  obtain ⟨item, found, result⟩ := Option.bind_eq_some_iff.mp got
  obtain ⟨rfl, rfl⟩ := Prod.mk.inj (Option.some.inj result)
  obtain ⟨recut, out, picked⟩ := getPacketFromList_spec positive laid.appShort edited
  obtain rfl := Option.some.inj (picked.item.symm.trans found)
  have first : place = 0 := by
    have start := congrArg (fun seq => seq.value.toNat) picked.seq
    simp only [plus, UInt32.toNat_add] at start
    have short := laid.appShort
    rw [← recut.bytes, ← List.take_append_drop place editing.list, bytes_append,
      List.length_append] at short
    have empty : (bytes (editing.list.take place)).length = 0 := by
      have size :=
        getSize_toNat (show (bytes (editing.list.take place)).length < 2 ^ 32 by omega)
      omega
    by_contra later
    obtain ⟨bound, -⟩ := List.getElem?_eq_some_iff.mp found
    obtain ⟨head, rest, isList⟩ := List.exists_cons_of_length_pos (Nat.zero_lt_of_lt bound)
    have filled := length_ne_zero (recut.filled laid.app) (by rw [isList]; exact List.mem_cons_self)
    obtain ⟨less, rfl⟩ := Nat.exists_eq_succ_of_ne_zero later
    rw [isList, List.take_succ_cons, bytes_cons, List.length_append] at empty
    omega
  subst first
  obtain ⟨list, retrans, made⟩ := editing
  cases list with
  | nil => cases found
  | cons head rest =>
      obtain rfl := Option.some.inj found
      exact ⟨head, rest, retrans, made, recut, picked.length, rfl, rfl⟩

theorem getTransmittedSegment_cases (laid : Laid buffer) (positive : s ≠ 0)
    (got : buffer.getTransmittedSegment s seq = some (next, index)) :
    ∃ before item after retrans made,
      Recut ⟨buffer.sentList, buffer.retrans, buffer.made⟩
        ⟨before ++ item :: after, retrans, made⟩ ∧
      seq = buffer.firstByteSeq.plus (getSize (bytes before)) ∧
      item.packet.length ≤ s.toNat ∧ index = before.length ∧
      next = { buffer with
        sentList := before ++ { item with retrans := true } :: after
        retrans := if item.retrans then retrans else retrans + item.size
        made } := by
  rw [getTransmittedSegment] at got
  split at got
  · obtain ⟨⟨editing, place⟩, edited, got⟩ := Option.bind_eq_some_iff.mp got
    obtain ⟨item, found, result⟩ := Option.bind_eq_some_iff.mp got
    obtain ⟨rfl, rfl⟩ := Prod.mk.inj (Option.some.inj result)
    have size := transmittedSize_ne_zero seq positive laid.sent laid.sentShort
    obtain ⟨recut, out, picked⟩ := getPacketFromList_spec size laid.sentShort edited
    obtain rfl := Option.some.inj (picked.item.symm.trans found)
    obtain ⟨list, retrans, made⟩ := editing
    obtain ⟨bound, isItem⟩ := List.getElem?_eq_some_iff.mp found
    have isList : list = list.take place ++ out :: list.drop (place + 1) := by
      rw [← isItem, List.getElem_cons_drop, List.take_append_drop]
    have length : (list.take place).length = place :=
      List.length_take_of_le (Nat.le_of_lt bound)
    refine ⟨list.take place, out, list.drop (place + 1), retrans, made, ?_, picked.seq, ?_,
      length.symm, ?_⟩
    · rwa [← isList]
    · have most := UInt32.le_iff_toNat_le.mp (transmittedSize_le s seq buffer.sentList)
      exact Nat.le_trans picked.length most
    · dsimp only
      rw [List.set_eq_take_append_cons_drop, if_pos bound]
  · cases got

theorem getNewSegment_rearranged (laid : Laid buffer) (positive : s ≠ 0)
    (got : buffer.getNewSegment s = some (next, index)) : Rearranged buffer next := by
  obtain ⟨item, rest, retrans, made, recut, -, -, rfl⟩ := getNewSegment_cases laid positive got
  have same : item.packet ++ bytes rest = bytes buffer.appList := recut.bytes
  have filled := recut.filled laid.app
  have short := laid.short
  have held : bytes (buffer.sentList ++
      [{ item with startSeq := buffer.firstByteSeq.plus buffer.sentSize }]) ++ bytes rest =
      buffer.held := by
    rw [bytes_append, bytes_cons, bytes_nil, List.append_nil, List.append_assoc, same, held]
  rw [← held, bytes_append, bytes_cons, bytes_nil] at short
  simp only [List.length_append, List.length_nil] at short
  refine ⟨rfl, rfl, rfl, held, ?_⟩
  constructor
  · dsimp only
    rw [UInt32.toNat_add, laid.sentSize, size_toNat item (by omega), bytes_append, bytes_cons,
      bytes_nil]
    simp only [List.length_append, List.length_nil]
    omega
  · rw [TcpTxBuffer.held, held]
    exact laid.size
  · rw [starts_append, ← laid.sentSize_eq]
    exact ⟨laid.starts, rfl, trivial⟩
  · intro other member
    rcases List.mem_append.mp member with inside | last
    · exact laid.sent other inside
    · rw [List.mem_singleton.mp last]
      exact filled item (List.mem_cons_self)
  · exact fun other member => filled other (List.mem_cons_of_mem _ member)
  · exact laid.room

theorem getTransmittedSegment_rearranged (laid : Laid buffer) (positive : s ≠ 0)
    (got : buffer.getTransmittedSegment s seq = some (next, index)) : Rearranged buffer next := by
  obtain ⟨before, item, after, retrans, made, recut, -, -, -, rfl⟩ :=
    getTransmittedSegment_cases laid positive got
  have sameLayout : (before ++ { item with retrans := true } :: after).map layout =
      (before ++ item :: after).map layout := by
    simp [layout]
  have same := (bytes_of_layout sameLayout).trans recut.bytes
  have held : bytes (before ++ { item with retrans := true } :: after) ++ bytes buffer.appList =
      buffer.held := by
    rw [same]
    rfl
  refine ⟨rfl, rfl, rfl, held, ?_⟩
  constructor
  · rw [laid.sentSize]
    exact congrArg List.length same.symm
  · rw [TcpTxBuffer.held, held]
    exact laid.size
  · exact starts_of_layout sameLayout (recut.starts _ laid.starts)
  · exact filled_of_layout sameLayout (recut.filled laid.sent)
  · exact laid.app
  · exact laid.room

/-- Where `CopyFromSequence` finds the item that it returns. -/
structure Copied (buffer : TcpTxBuffer) (now : Int64) (numBytes s : UInt32)
    (seq : SequenceNumber32) (middle : TcpTxBuffer) (index : ℕ) (outItem : TcpTxItem)
    (next : TcpTxBuffer) : Prop where
  positive : s ≠ 0
  most : s ≤ numBytes
  source : buffer.getTransmittedSegment s seq = some (middle, index) ∧ outItem.sacked = false ∨
    seq = buffer.firstByteSeq.plus buffer.sentSize ∧
      buffer.getNewSegment s = some (middle, index) ∧ outItem.retrans = false
  item : middle.sentList[index]? = some outItem
  next : next = { middle with
    sentList := middle.sentList.set index { outItem with lastSent := now } }

theorem markSent_cases {found : Option ℕ} (marked : buffer.markSent now index = some (next, found)) :
    ∃ item, buffer.sentList[index]? = some item ∧ found = some index ∧
      next = { buffer with sentList := buffer.sentList.set index { item with lastSent := now } } := by
  obtain ⟨item, here, marked⟩ := Option.bind_eq_some_iff.mp marked
  split at marked
  · obtain ⟨rfl, rfl⟩ := Prod.mk.inj (Option.some.inj marked)
    exact ⟨item, here, rfl, rfl⟩
  · cases marked

theorem copyFromSequence_cases {depth : ℕ} {found : Option ℕ}
    (copied : Tcp.copyFromSequence now depth buffer numBytes seq = some (next, found)) :
    (found = none ∧ next = buffer) ∨
      ∃ s middle index outItem, found = some index ∧
        Copied buffer now numBytes s seq middle index outItem next := by
  induction depth generalizing numBytes with
  | zero => cases copied
  | succ depth ih =>
      rw [Tcp.copyFromSequence] at copied
      split at copied
      · cases copied
      · have most : min numBytes (buffer.sizeFromSequence seq) ≤ numBytes := min_size_le _ _
        dsimp only at copied
        generalize min numBytes (buffer.sizeFromSequence seq) = s at copied most
        split at copied
        · obtain ⟨rfl, rfl⟩ := Prod.mk.inj (Option.some.inj copied)
          exact Or.inl ⟨rfl, rfl⟩
        · rename_i positive
          split at copied
          · obtain ⟨⟨middle, index⟩, got, copied⟩ := Option.bind_eq_some_iff.mp copied
            obtain ⟨outItem, here, copied⟩ := Option.bind_eq_some_iff.mp copied
            split at copied
            · cases copied
            · rename_i unsacked
              obtain ⟨item, also, isFound, isNext⟩ := markSent_cases copied
              obtain rfl := Option.some.inj (here.symm.trans also)
              exact Or.inr ⟨_, middle, index, outItem, isFound, positive, most,
                Or.inl ⟨got, Bool.not_eq_true _ ▸ unsacked⟩, here, isNext⟩
          · split at copied
            · split at copied
              · rename_i start
                obtain ⟨⟨middle, index⟩, got, copied⟩ := Option.bind_eq_some_iff.mp copied
                obtain ⟨outItem, here, copied⟩ := Option.bind_eq_some_iff.mp copied
                split at copied
                · cases copied
                · rename_i fresh
                  obtain ⟨item, also, isFound, isNext⟩ := markSent_cases copied
                  obtain rfl := Option.some.inj (here.symm.trans also)
                  exact Or.inr ⟨_, middle, index, outItem, isFound, positive, most,
                    Or.inr ⟨start.symm, got, Bool.not_eq_true _ ▸ fresh⟩, here, isNext⟩
              · cases copied
            · split at copied
              · -- a part is retransmission: the amount that is left of the transmitted bytes
                rename_i part
                have less : (buffer.firstByteSeq.plus buffer.sentSize).value - seq.value ≤
                    numBytes := by
                  have below := s.toNat_lt
                  simp only [gt_iff_lt, UInt32.lt_iff_toNat_lt, UInt32.toNat_add,
                    UInt32.le_iff_toNat_le, UInt32.toNat_sub] at part most ⊢
                  omega
                rcases ih copied with same | ⟨s, middle, index, outItem, isFound, copy⟩
                · exact Or.inl same
                · exact Or.inr ⟨s, middle, index, outItem, isFound, copy.positive,
                    UInt32.le_trans copy.most less, copy.source, copy.item, copy.next⟩
              · cases copied

theorem copyFromSequence_enough (now : Int64) (depth : ℕ) (buffer : TcpTxBuffer)
    (numBytes : UInt32) (seq : SequenceNumber32) :
    Tcp.copyFromSequence now (depth + 2) buffer numBytes seq =
      buffer.copyFromSequence now numBytes seq := by
  have settled : ∀ depth other, (buffer.firstByteSeq.plus buffer.sentSize).value > seq.value →
      Tcp.copyFromSequence now (depth + 1) buffer
        ((buffer.firstByteSeq.plus buffer.sentSize).value - seq.value) seq =
      Tcp.copyFromSequence now (other + 1) buffer
        ((buffer.firstByteSeq.plus buffer.sentSize).value - seq.value) seq := by
    intro depth other ahead
    have most := min_size_le ((buffer.firstByteSeq.plus buffer.sentSize).value - seq.value)
      (buffer.sizeFromSequence seq)
    rw [Tcp.copyFromSequence, Tcp.copyFromSequence]
    dsimp only
    generalize min ((buffer.firstByteSeq.plus buffer.sentSize).value - seq.value)
      (buffer.sizeFromSequence seq) = s at most
    have inside : ¬ ((buffer.firstByteSeq.plus buffer.sentSize).value > seq.value ∧
        (buffer.firstByteSeq.plus buffer.sentSize).value < seq.value + s) := by
      simp only [gt_iff_lt, UInt32.lt_iff_toNat_lt, UInt32.toNat_add, UInt32.le_iff_toNat_le,
        UInt32.toNat_sub] at ahead most ⊢
      omega
    rw [if_neg inside, if_neg inside]
  rw [copyFromSequence, Tcp.copyFromSequence, Tcp.copyFromSequence.eq_def now 2]
  dsimp only
  split
  · rfl
  · split
    · rfl
    · split
      · rfl
      · split
        · rfl
        · split
          · rename_i part
            exact settled depth 0 part.1
          · rfl

theorem copyFromSequence_rearranged {depth : ℕ} {found : Option ℕ} (laid : Laid buffer)
    (copied : Tcp.copyFromSequence now depth buffer numBytes seq = some (next, found)) :
    Rearranged buffer next := by
  rcases copyFromSequence_cases copied with ⟨-, rfl⟩ | ⟨s, middle, index, outItem, -, copy⟩
  · exact Rearranged.refl laid
  · have arranged : Rearranged buffer middle := by
      rcases copy.source with ⟨got, -⟩ | ⟨-, got, -⟩
      · exact getTransmittedSegment_rearranged laid copy.positive got
      · exact getNewSegment_rearranged laid copy.positive got
    have relabelled : Relabelled middle next := by
      rw [copy.next]
      exact ⟨rfl, rfl, rfl, rfl, rfl, layout_set copy.item rfl⟩
    exact arranged.trans (relabelled.rearranged arranged.laid)

theorem Laid.startSeq_eq {item : TcpTxItem} (laid : Laid buffer)
    (here : buffer.sentList[index]? = some item) :
    item.startSeq = buffer.firstByteSeq.plus (getSize (bytes (buffer.sentList.take index))) := by
  obtain ⟨bound, isItem⟩ := List.getElem?_eq_some_iff.mp here
  have starts := laid.starts
  rw [← List.take_append_drop index buffer.sentList, starts_append,
    List.drop_eq_getElem_cons bound, isItem] at starts
  exact starts.2.1

theorem Laid.packet_eq {item : TcpTxItem} (laid : Laid buffer)
    (here : buffer.sentList[index]? = some item) :
    item.packet = (buffer.held.drop
      (item.startSeq.minus buffer.firstByteSeq).toUInt32.toNat).take item.packet.length := by
  obtain ⟨bound, isItem⟩ := List.getElem?_eq_some_iff.mp here
  have isList : buffer.sentList =
      buffer.sentList.take index ++ item :: buffer.sentList.drop (index + 1) := by
    rw [← isItem, List.getElem_cons_drop, List.take_append_drop]
  have short := laid.sentShort
  rw [isList, bytes_append, List.length_append] at short
  have offset : (item.startSeq.minus buffer.firstByteSeq).toUInt32.toNat =
      (bytes (buffer.sentList.take index)).length := by
    rw [minus_toUInt32, laid.startSeq_eq here, plus, UInt32.toNat_sub, UInt32.toNat_add,
      getSize_toNat (by omega)]
    have first := buffer.firstByteSeq.value.toNat_lt
    omega
  rw [offset, held]
  nth_rewrite 2 [isList]
  rw [bytes_append, bytes_cons, List.append_assoc, List.append_assoc, List.drop_left,
    List.take_left]

/-- What `CopyFromSequence` returns. -/
structure Serves (queued : List UInt8) (una seq : SequenceNumber32) (numBytes : UInt32)
    (item : TcpTxItem) : Prop where
  startSeq : item.startSeq = seq
  positive : 1 ≤ item.packet.length
  most : item.packet.length ≤ numBytes.toNat
  packet : item.packet = (queued.drop (seq.minus una).toUInt32.toNat).take item.packet.length

theorem copyFromSequence_serves {depth : ℕ} (laid : Laid buffer)
    (copied : Tcp.copyFromSequence now depth buffer numBytes seq = some (next, some index)) :
    ∃ item, next.sentList[index]? = some item ∧
      Serves buffer.held buffer.firstByteSeq seq numBytes item := by
  have arranged := copyFromSequence_rearranged laid copied
  rcases copyFromSequence_cases copied with ⟨⟨⟩, -⟩ | ⟨s, middle, place, outItem, isIndex, copy⟩
  obtain rfl := Option.some.inj isIndex
  have most := UInt32.le_iff_toNat_le.mp copy.most
  obtain ⟨isStart, length⟩ : outItem.startSeq = seq ∧ outItem.packet.length ≤ s.toNat := by
    have item := copy.item
    rcases copy.source with ⟨got, -⟩ | ⟨isSeq, got, -⟩
    · obtain ⟨before, found, after, retrans, made, recut, isSeq, few, rfl, rfl⟩ :=
        getTransmittedSegment_cases laid copy.positive got
      have starts := (starts_append _).mp (recut.starts _ laid.starts)
      rw [List.getElem?_append_right (Nat.le_refl _), Nat.sub_self] at item
      obtain rfl := Option.some.inj item
      exact ⟨starts.2.1.trans isSeq.symm, few⟩
    · obtain ⟨found, rest, retrans, made, recut, few, rfl, rfl⟩ :=
        getNewSegment_cases laid copy.positive got
      rw [List.getElem?_append_right (Nat.le_refl _), Nat.sub_self] at item
      obtain rfl := Option.some.inj item
      exact ⟨isSeq.symm, few⟩
  have bound := (List.getElem?_eq_some_iff.mp copy.item).1
  have here : next.sentList[index]? = some { outItem with lastSent := now } := by
    rw [copy.next, List.getElem?_set_self bound]
  have member := List.mem_of_getElem? here
  have packet := arranged.laid.packet_eq here
  rw [arranged.held, arranged.firstByteSeq] at packet
  refine ⟨_, here, isStart, ?_, Nat.le_trans length most, ?_⟩
  · exact Nat.one_le_iff_ne_zero.mpr (length_ne_zero arranged.laid.sent member)
  · rw [← isStart]
    exact packet

end TcpTxBuffer

end FISim.Tcp
