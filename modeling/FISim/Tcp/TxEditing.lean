import FISim.Tcp.TxBuffer

/-!
What `GetPacketFromList` keeps of a list as it splits and merges its items, and what it
returns.
-/

namespace FISim.Tcp

open SequenceNumber32

def bytes (items : List TcpTxItem) : List UInt8 := items.flatMap TcpTxItem.packet

@[simp] theorem bytes_nil : bytes [] = [] := rfl

@[simp] theorem bytes_cons (item : TcpTxItem) (rest : List TcpTxItem) :
    bytes (item :: rest) = item.packet ++ bytes rest := rfl

@[simp] theorem bytes_append (first second : List TcpTxItem) :
    bytes (first ++ second) = bytes first ++ bytes second := List.flatMap_append

/-- How many bytes the items with a flag hold. -/
def flagged (flag : TcpTxItem → Bool) (items : List TcpTxItem) : ℕ :=
  (bytes (items.filter flag)).length

@[simp] theorem flagged_nil (flag : TcpTxItem → Bool) : flagged flag [] = 0 := rfl

@[simp] theorem flagged_cons (flag : TcpTxItem → Bool) (item : TcpTxItem)
    (rest : List TcpTxItem) :
    flagged flag (item :: rest) = (if flag item then item.packet.length else 0) +
      flagged flag rest := by
  cases marked : flag item with
  | true => simp [flagged, marked]
  | false => simp [flagged, marked]

@[simp] theorem flagged_append (flag : TcpTxItem → Bool) (first second : List TcpTxItem) :
    flagged flag (first ++ second) = flagged flag first + flagged flag second := by
  simp [flagged]

theorem flagged_le (flag : TcpTxItem → Bool) (items : List TcpTxItem) :
    flagged flag items ≤ (bytes items).length := by
  induction items with
  | nil => exact Nat.le_refl 0
  | cons item rest ih =>
      rw [flagged_cons, bytes_cons, List.length_append]
      split
      · omega
      · omega

def Filled (items : List TcpTxItem) : Prop := ∀ item ∈ items, item.packet ≠ []

/-- Each item starts where the one before it ends. -/
def Starts : SequenceNumber32 → List TcpTxItem → Prop
  | _, [] => True
  | seq, item :: rest => item.startSeq = seq ∧ Starts (seq.plus item.size) rest

theorem getSize_append (first second : Packet) :
    getSize (first ++ second) = getSize first + getSize second := by
  rw [getSize, List.length_append, UInt32.ofNat_add]
  rfl

theorem starts_append {first second : List TcpTxItem} (seq : SequenceNumber32) :
    Starts seq (first ++ second) ↔
      Starts seq first ∧ Starts (seq.plus (getSize (bytes first))) second := by
  induction first generalizing seq with
  | nil => simp [Starts, plus, getSize]
  | cons item rest ih =>
      rw [List.cons_append, Starts, Starts, ih, bytes_cons, getSize_append, plus_plus, and_assoc]
      rfl

/-- What splitting and merging keep. -/
structure Recut (first second : Editing) : Prop where
  bytes : bytes second.list = bytes first.list
  filled : Filled first.list → Filled second.list
  starts : ∀ seq, Starts seq first.list → Starts seq second.list
  sacked : flagged TcpTxItem.sacked second.list = flagged TcpTxItem.sacked first.list
  lost : flagged TcpTxItem.lost second.list = flagged TcpTxItem.lost first.list
  retrans : flagged TcpTxItem.retrans first.list ≤ first.retrans.toNat →
    second.retrans.toNat + flagged TcpTxItem.retrans first.list =
      first.retrans.toNat + flagged TcpTxItem.retrans second.list
  flags : ∀ item ∈ second.list, ∃ old ∈ first.list, item.sacked = old.sacked ∧
    item.lost = old.lost ∧ (item.retrans = true → old.retrans = true)

theorem Recut.refl (editing : Editing) : Recut editing editing :=
  ⟨rfl, id, fun _ => id, rfl, rfl, fun _ => rfl, fun item member => ⟨item, member, rfl, rfl, id⟩⟩

theorem Recut.trans {first second third : Editing} (before : Recut first second)
    (after : Recut second third) : Recut first third := by
  constructor
  · exact after.bytes.trans before.bytes
  · exact fun filled => after.filled (before.filled filled)
  · exact fun seq starts => after.starts seq (before.starts seq starts)
  · exact after.sacked.trans before.sacked
  · exact after.lost.trans before.lost
  · intro covered
    have sum := before.retrans covered
    have later := after.retrans (by omega)
    omega
  · intro item member
    obtain ⟨middle, found, sacked, lost, retrans⟩ := after.flags item member
    obtain ⟨old, inside, sackedOld, lostOld, retransOld⟩ := before.flags middle found
    exact ⟨old, inside, sacked.trans sackedOld, lost.trans lostOld,
      fun marked => retransOld (retrans marked)⟩

theorem createFragment_front {packet front : Packet} {size : UInt32}
    (made : createFragment packet 0 size = some front) :
    front = packet.take size.toNat ∧ size ≤ getSize packet := by
  rw [createFragment] at made
  split at made
  · cases made
  · rename_i fits
    rw [UInt32.zero_add, UInt32.not_lt] at fits
    obtain rfl := Option.some.inj made
    exact ⟨by simp, fits⟩

theorem splitItems_cases {made : ℕ} {t2 first second : TcpTxItem} {size : UInt32}
    (split : splitItems made t2 size = some (first, second)) :
    size ≤ t2.size ∧
      first = { t2 with id := made, packet := t2.packet.take size.toNat } ∧
      second = { t2 with
        packet := t2.packet.drop size.toNat, startSeq := t2.startSeq.plus size } := by
  obtain ⟨front, cut, result⟩ := Option.bind_eq_some_iff.mp split
  obtain ⟨rfl, fits⟩ := createFragment_front cut
  simp only [Option.pure_def, Option.some.injEq, Prod.mk.injEq] at result
  exact ⟨fits, result.1.symm, result.2.symm⟩

theorem Recut.inside {first second : List TcpTxItem} {retrans later : UInt32} {made more : ℕ}
    (before after : List TcpTxItem)
    (recut : Recut ⟨first, retrans, made⟩ ⟨second, later, more⟩) :
    Recut ⟨before ++ first ++ after, retrans, made⟩ ⟨before ++ second ++ after, later, more⟩ := by
  have sameBytes := recut.bytes
  dsimp only at sameBytes
  constructor
  · simp [sameBytes]
  · intro filled item member
    rw [List.mem_append, List.mem_append] at member
    have firstFilled : Filled first := fun item inside => filled item (by simp [inside])
    rcases member with (inBefore | inside) | inAfter
    · exact filled item (by simp [inBefore])
    · exact recut.filled firstFilled item inside
    · exact filled item (by simp [inAfter])
  · intro seq starts
    rw [starts_append, starts_append] at starts ⊢
    obtain ⟨⟨early, middle⟩, late⟩ := starts
    refine ⟨⟨early, recut.starts _ middle⟩, ?_⟩
    rw [bytes_append, sameBytes, ← bytes_append]
    exact late
  · simpa using recut.sacked
  · simpa using recut.lost
  · intro covered
    simp only [flagged_append] at covered ⊢
    have sum := recut.retrans (by dsimp only; omega)
    dsimp only at sum
    omega
  · intro item member
    rw [List.mem_append, List.mem_append] at member
    rcases member with (inBefore | inside) | inAfter
    · exact ⟨item, by simp [inBefore], rfl, rfl, id⟩
    · obtain ⟨old, found, same⟩ := recut.flags item inside
      exact ⟨old, by simp [show old ∈ first from found], same⟩
    · exact ⟨item, by simp [inAfter], rfl, rfl, id⟩

theorem recut_split {made : ℕ} {t2 front back : TcpTxItem} {size : UInt32} (retrans : UInt32)
    (split : splitItems made t2 size = some (front, back)) (positive : size ≠ 0)
    (part : size ≠ t2.size) :
    Recut ⟨[t2], retrans, made⟩ ⟨[front, back], retrans, made + 1⟩ := by
  obtain ⟨fits, isFront, isBack⟩ := splitItems_cases split
  have above : 0 < size.toNat := by
    rw [Nat.pos_iff_ne_zero]
    exact fun zero => positive (UInt32.toNat_inj.mp zero)
  have below : size.toNat < t2.packet.length := by
    have most : t2.size.toNat ≤ t2.packet.length := by
      rw [TcpTxItem.size, getSize, UInt32.toNat_ofNat']
      exact Nat.mod_le _ _
    have order := UInt32.le_iff_toNat_le.mp fits
    have distinct : size.toNat ≠ t2.size.toNat := fun same => part (UInt32.toNat_inj.mp same)
    omega
  have whole : front.packet ++ back.packet = t2.packet := by
    rw [isFront, isBack]
    exact List.take_append_drop _ _
  have frontLength : front.packet.length = size.toNat := by
    rw [isFront, List.length_take]
    omega
  have backLength : back.packet.length = t2.packet.length - size.toNat := by
    rw [isBack, List.length_drop]
  have same : ∀ flag : TcpTxItem → Bool, flag front = flag t2 → flag back = flag t2 →
      flagged flag [front, back] = flagged flag [t2] := by
    intro flag first second
    simp only [flagged_cons, flagged_nil, first, second, frontLength, backLength]
    split
    · omega
    · rfl
  constructor
  · simp [whole]
  · intro _ item member
    rcases List.mem_cons.mp member with rfl | last
    · exact List.ne_nil_of_length_pos (by omega)
    · obtain rfl := List.mem_singleton.mp last
      exact List.ne_nil_of_length_pos (by omega)
  · rintro seq ⟨start, _⟩
    have length : front.size = size := by
      rw [TcpTxItem.size, getSize, frontLength, UInt32.ofNat_toNat]
    refine ⟨by rw [isFront]; exact start, ?_, trivial⟩
    rw [length, isBack, ← start]
  · exact same TcpTxItem.sacked (by rw [isFront]) (by rw [isBack])
  · exact same TcpTxItem.lost (by rw [isFront]) (by rw [isBack])
  · intro _
    dsimp only
    rw [same TcpTxItem.retrans (by rw [isFront]) (by rw [isBack])]
  · intro item member
    refine ⟨t2, by simp, ?_⟩
    rcases List.mem_cons.mp member with rfl | last
    · rw [isFront]
      exact ⟨rfl, rfl, id⟩
    · obtain rfl := List.mem_singleton.mp last
      rw [isBack]
      exact ⟨rfl, rfl, id⟩

theorem size_toNat (item : TcpTxItem) (short : item.packet.length < 2 ^ 32) :
    item.size.toNat = item.packet.length := getSize_toNat short

theorem recut_merge {retrans later : UInt32} {t1 t2 merged : TcpTxItem} (made : ℕ)
    (merge : mergeItems retrans t1 t2 = some (merged, later)) :
    Recut ⟨[t1, t2], retrans, made⟩ ⟨[merged], later, made⟩ ∧
      merged.packet = t1.packet ++ t2.packet := by
  rw [mergeItems] at merge
  split at merge
  · cases merge
  · rename_i alike
    rw [not_or, not_not, not_not] at alike
    obtain ⟨sacked, lost⟩ := alike
    have shape : merged.packet = t1.packet ++ t2.packet ∧ merged.startSeq = t1.startSeq ∧
        merged.sacked = t1.sacked ∧ merged.lost = t1.lost ∧
        merged.retrans = (t1.retrans && t2.retrans) ∧
        later = if t1.retrans = t2.retrans then retrans
          else if t1.retrans then retrans - t1.size else retrans - t2.size := by
      dsimp only at merge
      cases first : t1.retrans <;> cases second : t2.retrans <;>
        simp only [first, second, ne_eq, not_true_eq_false, not_false_eq_true, if_true, if_false,
          Bool.false_eq_true, Bool.true_eq_false, Option.some.injEq, Prod.mk.injEq] at merge ⊢ <;>
        obtain ⟨rfl, rfl⟩ := merge <;> simp
    obtain ⟨packet, startSeq, nowSacked, nowLost, nowRetrans, isLater⟩ := shape
    have same : ∀ flag : TcpTxItem → Bool, flag t1 = flag t2 → flag merged = flag t1 →
        flagged flag [merged] = flagged flag [t1, t2] := by
      intro flag first second
      simp only [flagged_cons, flagged_nil, second, ← first, packet, List.length_append]
      split
      · omega
      · rfl
    refine ⟨?_, packet⟩
    constructor
    · simp [packet]
    · intro filled item member
      obtain rfl := List.mem_singleton.mp member
      rw [packet]
      exact List.append_ne_nil_of_left_ne_nil (filled t1 (by simp)) _
    · rintro seq ⟨start, _⟩
      exact ⟨startSeq.trans start, trivial⟩
    · exact same TcpTxItem.sacked sacked nowSacked
    · exact same TcpTxItem.lost lost nowLost
    · intro covered
      have most := retrans.toNat_lt
      simp only [flagged_cons, flagged_nil, nowRetrans, packet, List.length_append] at covered ⊢
      rw [isLater]
      cases first : t1.retrans with
      | true =>
          cases second : t2.retrans with
          | true => simp
          | false =>
              simp only [first, second, if_true, if_false, Bool.false_eq_true] at covered
              have size := size_toNat t1 (by omega)
              have order : t1.size ≤ retrans := by
                rw [UInt32.le_iff_toNat_le, size]
                omega
              simp only [Bool.true_eq_false, if_false, if_true, Bool.and_false, Bool.false_eq_true]
              rw [UInt32.toNat_sub_of_le _ _ order, size]
              omega
      | false =>
          cases second : t2.retrans with
          | true =>
              simp only [first, second, if_true, if_false, Bool.false_eq_true] at covered
              have size := size_toNat t2 (by omega)
              have order : t2.size ≤ retrans := by
                rw [UInt32.le_iff_toNat_le, size]
                omega
              simp only [Bool.false_eq_true, if_false, if_true, Bool.and_true]
              rw [UInt32.toNat_sub_of_le _ _ order, size]
              omega
          | false => simp
    · intro item member
      obtain rfl := List.mem_singleton.mp member
      refine ⟨t1, by simp, nowSacked, nowLost, ?_⟩
      rw [nowRetrans, Bool.and_eq_true]
      exact fun both => both.1

theorem walkTo_spec {assertion : TcpTxItem → Bool} {seq beginOfCurrentPacket : SequenceNumber32}
    {passed items : List TcpTxItem} {found : Walked}
    (walked : walkTo assertion seq passed beginOfCurrentPacket items = some found) :
    ∃ more, found.passed = passed ++ more ∧ items = more ++ found.current :: found.rest ∧
      found.beginOfCurrentPacket = beginOfCurrentPacket.plus (getSize (bytes more)) ∧
      seq.less (found.beginOfCurrentPacket.plus found.current.size) = true := by
  induction items generalizing passed beginOfCurrentPacket with
  | nil => cases walked
  | cons current rest ih =>
      rw [walkTo] at walked
      split at walked
      · cases walked
      · split at walked
        · rename_i inside
          obtain rfl := Option.some.inj walked
          exact ⟨[], by simp, rfl, by simp [plus, getSize], inside⟩
        · obtain ⟨more, isPassed, isRest, begins, inside⟩ := ih walked
          refine ⟨current :: more, by simp [isPassed], by simp [isRest], ?_, inside⟩
          rw [begins, plus_plus, bytes_cons, getSize_append]
          rfl

/-- The item at `index` starts at `seq` and holds at most `numBytes` bytes. -/
structure Picked (listStartFrom : SequenceNumber32) (numBytes : UInt32) (seq : SequenceNumber32)
    (items : List TcpTxItem) (index : ℕ) (out : TcpTxItem) : Prop where
  item : items[index]? = some out
  seq : seq = listStartFrom.plus (getSize (bytes (items.take index)))
  length : out.packet.length ≤ numBytes.toNat

theorem picked_here {listStartFrom seq : SequenceNumber32} {numBytes : UInt32}
    {before after : List TcpTxItem} {out : TcpTxItem}
    (begins : seq = listStartFrom.plus (getSize (bytes before)))
    (length : out.packet.length ≤ numBytes.toNat) :
    Picked listStartFrom numBytes seq (before ++ out :: after) before.length out :=
  ⟨by simp, by simpa using begins, length⟩

theorem shorter_than_asked {seq : SequenceNumber32} {numBytes : UInt32} {current : TcpTxItem}
    (positive : numBytes ≠ 0) (short : current.packet.length < 2 ^ 32)
    (inside : seq.less (seq.plus current.size) = true)
    (beyond : (seq.plus numBytes).lessEqual (seq.plus current.size) = false) :
    current.packet.length ≤ numBytes.toNat := by
  have size := size_toNat current short
  have most := numBytes.toNat_lt
  have above : numBytes.toNat ≠ 0 := fun zero => positive (UInt32.toNat_inj.mp zero)
  rw [lessEqual, Bool.not_eq_false'] at beyond
  rw [less, Bool.and_eq_true, Bool.not_eq_true', decide_eq_true_eq] at inside
  have ahead := distance_of_greater beyond
  have near := (distance_of_not_greater inside.1).resolve_left inside.2
  rw [plus_value_sub, UInt32.toNat_sub, size] at ahead
  rw [plus, add_sub_cancel_left, size] at near
  omega

theorem inside_ne_size {seq beginOfCurrentPacket : SequenceNumber32} {size : UInt32}
    (inside : seq.less (beginOfCurrentPacket.plus size) = true) :
    (seq.minus beginOfCurrentPacket).toUInt32 ≠ size := by
  rw [minus_toUInt32]
  intro whole
  rw [less, Bool.and_eq_true, decide_eq_true_eq] at inside
  refine inside.2 ?_
  rw [← whole, plus, add_sub_cancel]

theorem getPacketFromList_spec {assertion : TcpTxItem → Bool}
    {listStartFrom seq : SequenceNumber32} {numBytes : UInt32} {depth index : ℕ}
    {first second : Editing} (positive : numBytes ≠ 0)
    (short : (bytes first.list).length < 2 ^ 32)
    (got : getPacketFromList assertion listStartFrom numBytes seq depth first =
      some (second, index)) :
    Recut first second ∧ ∃ out, Picked listStartFrom numBytes seq second.list index out := by
  induction depth generalizing first with
  | zero => cases got
  | succ depth ih =>
      obtain ⟨list, retrans, made⟩ := first
      obtain ⟨found, walked, got⟩ := Option.bind_eq_some_iff.mp got
      obtain ⟨more, isPassed, isList, begins, inside⟩ := walkTo_spec walked
      obtain ⟨passed, beginOfCurrentPacket, current, rest⟩ := found
      dsimp only at isPassed isList begins inside got short
      rw [List.nil_append] at isPassed
      subst isPassed isList
      rw [bytes_append, bytes_cons, List.length_append, List.length_append] at short
      split at got
      · rename_i starts
        subst starts
        split at got
        · split at got
          · -- the item is what is asked for
            rename_i whole
            obtain ⟨rfl, rfl⟩ := Prod.mk.inj (Option.some.inj got)
            refine ⟨Recut.refl _, current, picked_here begins ?_⟩
            rw [whole, size_toNat current (by omega)]
          · split at got
            · rename_i notWhole less
              obtain ⟨⟨front, back⟩, splits, result⟩ := Option.bind_eq_some_iff.mp got
              obtain ⟨rfl, rfl⟩ := Prod.mk.inj (Option.some.inj result)
              have cut := (recut_split retrans splits positive notWhole).inside passed rest
              simp only [List.append_assoc, List.cons_append, List.nil_append] at cut
              refine ⟨cut, front, picked_here begins ?_⟩
              rw [(splitItems_cases splits).2.1, List.length_take]
              exact Nat.min_le_left _ _
            · cases got
        · rename_i beyond
          rw [Bool.not_eq_true] at beyond
          cases rest with
          | nil =>
              obtain ⟨rfl, rfl⟩ := Prod.mk.inj (Option.some.inj got)
              exact ⟨Recut.refl _, current,
                picked_here begins (shorter_than_asked positive (by omega) inside beyond)⟩
          | cons next rest =>
              obtain ⟨⟨merged, later⟩, merges, got⟩ := Option.bind_eq_some_iff.mp got
              have cut := (recut_merge made merges).1.inside passed rest
              simp only [List.append_assoc, List.cons_append, List.nil_append] at cut
              have shorter := congrArg List.length cut.bytes
              simp only [bytes_append, bytes_cons, List.length_append] at shorter short
              obtain ⟨after, picked⟩ := ih (by
                simp only [bytes_append, bytes_cons, List.length_append]
                omega) got
              exact ⟨cut.trans after, picked⟩
      · split at got
        · rename_i notHere ahead
          obtain ⟨⟨front, back⟩, splits, got⟩ := Option.bind_eq_some_iff.mp got
          have distance : (seq.minus beginOfCurrentPacket).toUInt32 =
              seq.value - beginOfCurrentPacket.value := minus_toUInt32 _ _
          have positive : (seq.minus beginOfCurrentPacket).toUInt32 ≠ 0 := by
            rw [distance]
            intro zero
            have above := (distance_of_greater ahead).1
            rw [zero] at above
            exact absurd above (by decide)
          have cut :=
            (recut_split retrans splits positive (inside_ne_size inside)).inside passed rest
          simp only [List.append_assoc, List.cons_append, List.nil_append] at cut
          have same := congrArg List.length cut.bytes
          simp only [bytes_append, bytes_cons, List.length_append] at same
          obtain ⟨after, picked⟩ := ih (by
            simp only [bytes_append, bytes_cons, List.length_append]
            omega) got
          exact ⟨cut.trans after, picked⟩
        · cases got

/-- An end of an item, or the start of the list, is at `seq`. -/
def Aligned (listStartFrom seq : SequenceNumber32) (items : List TcpTxItem) : Prop :=
  ∃ before after, items = before ++ after ∧ seq = listStartFrom.plus (getSize (bytes before))

theorem Aligned.outside {listStartFrom seq beginOfCurrentPacket : SequenceNumber32}
    {passed rest : List TcpTxItem} {current : TcpTxItem}
    (aligned : Aligned listStartFrom seq (passed ++ current :: rest))
    (short : (bytes (passed ++ current :: rest)).length < 2 ^ 32)
    (begins : beginOfCurrentPacket = listStartFrom.plus (getSize (bytes passed)))
    (ahead : seq.greater beginOfCurrentPacket = true) :
    current.packet.length ≤ (seq.minus beginOfCurrentPacket).toUInt32.toNat := by
  obtain ⟨before, after, isList, isSeq⟩ := aligned
  have all := short
  rw [isList, bytes_append, List.length_append] at all
  simp only [bytes_append, bytes_cons, List.length_append] at short
  have above := (distance_of_greater ahead).1
  rw [minus_toUInt32]
  rw [begins, isSeq, plus_value_sub, UInt32.toNat_sub, getSize_toNat (by omega),
    getSize_toNat (by omega)] at above ⊢
  have cases : (bytes before).length ≤ (bytes passed).length ∨
      (bytes passed).length + current.packet.length ≤ (bytes before).length := by
    rcases List.append_eq_append_iff.mp isList with ⟨more, longer, tail⟩ | ⟨more, shorter, -⟩
    · cases more with
      | nil => exact Or.inl (by simp [longer])
      | cons item others =>
          right
          obtain ⟨rfl, -⟩ := List.cons.inj tail
          rw [longer, bytes_append, bytes_cons, List.length_append, List.length_append]
          omega
    · left
      rw [shorter, bytes_append, List.length_append]
      omega
  omega

theorem not_splitItems {made : ℕ} {t2 : TcpTxItem} {size : UInt32}
    (outside : t2.packet.length ≤ size.toNat) (part : size ≠ t2.size) :
    splitItems made t2 size = none := by
  cases splits : splitItems made t2 size with
  | none => rfl
  | some parts =>
      have fits := (splitItems_cases splits).1
      have most : t2.size.toNat ≤ t2.packet.length := by
        rw [TcpTxItem.size, getSize, UInt32.toNat_ofNat']
        exact Nat.mod_le _ _
      have distinct : size.toNat ≠ t2.size.toNat := fun same => part (UInt32.toNat_inj.mp same)
      have order := UInt32.le_iff_toNat_le.mp fits
      omega

/-- Once some item starts at `seq`, every further call merges two items. -/
theorem getPacketFromList_aligned {assertion : TcpTxItem → Bool}
    {listStartFrom seq : SequenceNumber32} {numBytes : UInt32} {depth other : ℕ}
    {editing : Editing} (aligned : Aligned listStartFrom seq editing.list)
    (short : (bytes editing.list).length < 2 ^ 32) (enough : editing.list.length + 1 ≤ depth)
    (more : depth ≤ other) :
    getPacketFromList assertion listStartFrom numBytes seq depth editing =
      getPacketFromList assertion listStartFrom numBytes seq other editing := by
  induction depth generalizing other editing with
  | zero => omega
  | succ depth ih =>
      obtain ⟨other, rfl⟩ : ∃ less, other = less + 1 := ⟨other - 1, by omega⟩
      obtain ⟨list, retrans, made⟩ := editing
      rw [getPacketFromList, getPacketFromList]
      cases walked : walkTo assertion seq [] listStartFrom list with
      | none => rfl
      | some found =>
          obtain ⟨more, isPassed, isList, begins, inside⟩ := walkTo_spec walked
          obtain ⟨passed, beginOfCurrentPacket, current, rest⟩ := found
          dsimp only at isPassed isList begins inside aligned short enough
          rw [List.nil_append] at isPassed
          subst isPassed isList
          simp only [Option.bind_eq_bind, Option.bind_some]
          split
          · rename_i starts
            split
            · rfl
            · cases rest with
              | nil => rfl
              | cons next rest =>
                  cases merges : mergeItems retrans current next with
                  | none => simp only [merges, Option.bind_none]
                  | some result =>
                      obtain ⟨merged, later⟩ := result
                      simp only [merges, Option.bind_some]
                      have packet := (recut_merge made merges).2
                      apply ih
                      · exact ⟨passed, merged :: rest, rfl, starts.trans begins⟩
                      · simpa [packet] using short
                      · simp only [List.length_append, List.length_cons] at enough ⊢
                        omega
                      · omega
          · split
            · rename_i ahead
              rw [not_splitItems (aligned.outside short begins ahead) (inside_ne_size inside)]
              rfl
            · rfl

theorem getPacketFromList_enough {assertion : TcpTxItem → Bool}
    {listStartFrom seq : SequenceNumber32} {numBytes : UInt32} {depth other : ℕ}
    {editing : Editing} (short : (bytes editing.list).length < 2 ^ 32)
    (enough : editing.list.length + 3 ≤ depth) (more : depth ≤ other) :
    getPacketFromList assertion listStartFrom numBytes seq depth editing =
      getPacketFromList assertion listStartFrom numBytes seq other editing := by
  obtain ⟨depth, rfl⟩ : ∃ less, depth = less + 1 := ⟨depth - 1, by omega⟩
  obtain ⟨other, rfl⟩ : ∃ less, other = less + 1 := ⟨other - 1, by omega⟩
  obtain ⟨list, retrans, made⟩ := editing
  cases walked : walkTo assertion seq [] listStartFrom list with
  | none => rw [getPacketFromList, getPacketFromList, walked]; rfl
  | some found =>
      obtain ⟨passed, isPassed, isList, begins, inside⟩ := walkTo_spec walked
      by_cases starts : seq = found.beginOfCurrentPacket
      · apply getPacketFromList_aligned ⟨passed, _, isList, starts.trans begins⟩ short
        · exact Nat.le_trans (Nat.add_le_add_left (by decide) _) enough
        · exact more
      · rw [getPacketFromList, getPacketFromList, walked]
        simp only [Option.bind_eq_bind, Option.bind_some, if_neg starts]
        split
        · cases splits : splitItems made found.current
              (seq.minus found.beginOfCurrentPacket).toUInt32 with
          | none => rfl
          | some parts =>
              obtain ⟨front, back⟩ := parts
              obtain ⟨fits, isFront, isBack⟩ := splitItems_cases splits
              have whole : front.packet ++ back.packet = found.current.packet := by
                rw [isFront, isBack]
                exact List.take_append_drop _ _
              rw [List.nil_append] at isPassed
              dsimp only at isList short enough
              rw [isList] at short enough
              simp only [Option.bind_some]
              apply getPacketFromList_aligned
              · refine ⟨passed ++ [front], back :: found.rest, by simp [isPassed], ?_⟩
                have most := fits
                rw [UInt32.le_iff_toNat_le] at most
                have size : getSize front.packet =
                    (seq.minus found.beginOfCurrentPacket).toUInt32 := by
                  rw [isFront, getSize, List.length_take, Nat.min_eq_left, UInt32.ofNat_toNat]
                  refine Nat.le_trans most ?_
                  rw [TcpTxItem.size, getSize, UInt32.toNat_ofNat']
                  exact Nat.mod_le _ _
                rw [bytes_append, getSize_append, ← plus_plus, ← begins, bytes_cons, bytes_nil,
                  List.append_nil, size, minus_toUInt32, plus, add_sub_cancel]
              · simpa [isPassed, ← whole] using short
              · simp only [isPassed, List.length_append, List.length_cons] at enough ⊢
                omega
              · omega
        · rfl

end FISim.Tcp
