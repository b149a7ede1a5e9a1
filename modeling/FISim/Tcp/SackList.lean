import FISim.Tcp.RxStream

/-!
The list that `GetSackList` gives, in the runs of a receive buffer that is offered segments of one
stream.
-/

namespace FISim.Tcp

open Pieces SequenceNumber32 TcpRxBuffer Transition
open scoped UInt32.CommRing

def InBlock (seq : SequenceNumber32) (block : SackBlock) : Prop :=
  (seq.value - block.1.value).toNat < (block.2.value - block.1.value).toNat

def InPacket (seq : SequenceNumber32) (held : SequenceNumber32 × Packet) : Prop :=
  (seq.value - held.1.value).toNat < held.2.length

structure WellFormed (buffer : TcpRxBuffer) : Prop where
  few : buffer.sackList.length ≤ 4
  nonempty : ∀ block ∈ buffer.sackList, block.1.less block.2 = true
  above : ∀ block ∈ buffer.sackList, block.1.greater buffer.nextRxSeq = true
  held : ∀ block ∈ buffer.sackList, ∀ seq, InBlock seq block →
    ∃ held ∈ buffer.data, InPacket seq held
  disjoint : buffer.sackList.Pairwise fun first second =>
    ∀ seq, InBlock seq first → ¬ InBlock seq second

/-- The first block has what is stored out of order. -/
def ReportsFirst (before after : TcpRxBuffer) : Prop :=
  ∀ held ∈ after.data, held ∉ before.data → held.1.greater before.nextRxSeq = true →
    ∃ block rest, after.sackList = block :: rest ∧ ∀ seq, InPacket seq held → InBlock seq block

section Conditions

variable (start : SequenceNumber32) (stream : List UInt8) (receiver : Receiver)

/-- The packet ends before the segment does, and a byte of the segment before it is missing. -/
def Swallows (place tail : ℕ) (held : SequenceNumber32 × Packet) : Prop :=
  place + (held.1.value - (start.ofPlace place).value).toNat + held.2.length < tail ∧
    ∃ byte < (held.1.value - (start.ofPlace place).value).toNat,
      ∀ other ∈ receiver.buffer.data, ¬ InPacket (start.ofPlace (place + byte)) other

def Reported (buffer : TcpRxBuffer) (held : SequenceNumber32 × Packet) : Prop :=
  ∃ block ∈ buffer.sackList, ∃ byte < held.2.length,
    InBlock (held.1.plus (UInt32.ofNat byte)) block

/-- A segment that comes out of order swallows no packet that is reported. -/
def KeepsReported : Action → Prop
  | .add place count =>
      receiver.nextPlace stream < place → ∀ held ∈ receiver.buffer.data,
        Swallows start receiver place (receiver.trimmedEnd start (place + count)) held →
          ¬ Reported receiver.buffer held
  | .extract _ => True
  | .setFinSequence => True

instance (seq : SequenceNumber32) (block : SackBlock) : Decidable (InBlock seq block) :=
  inferInstanceAs (Decidable (_ < _))

instance (seq : SequenceNumber32) (held : SequenceNumber32 × Packet) :
    Decidable (InPacket seq held) :=
  inferInstanceAs (Decidable (_ < _))

instance (place tail : ℕ) (held : SequenceNumber32 × Packet) :
    Decidable (Swallows start receiver place tail held) :=
  inferInstanceAs (Decidable (_ ∧ _))

instance (buffer : TcpRxBuffer) (held : SequenceNumber32 × Packet) :
    Decidable (Reported buffer held) :=
  inferInstanceAs (Decidable (∃ block ∈ buffer.sackList, _))

instance : ∀ action, Decidable (KeepsReported start stream receiver action)
  | .add _ _ => inferInstanceAs (Decidable (_ → ∀ held ∈ receiver.buffer.data, _ → ¬ _))
  | .extract _ => inferInstanceAs (Decidable True)
  | .setFinSequence => inferInstanceAs (Decidable True)

end Conditions

section Places

variable {start : SequenceNumber32} {low place : ℕ}

theorem ofPlace_value_sub {other : ℕ} (order : other ≤ place) (near : place < other + 2 ^ 32) :
    ((start.ofPlace place).value - (start.ofPlace other).value).toNat = place - other := by
  rw [← minus_toUInt32]
  exact ofPlace_minus start order near

theorem inPacket_iff {piece : Piece} (above : low ≤ piece.2) (below : finish piece < low + 2 ^ 31)
    (lower : low ≤ place) (upper : place < low + 2 ^ 31) :
    InPacket (start.ofPlace place) (start.ofPlace piece.2, piece.1) ↔ Contains piece place := by
  have first := start.ofPlace_toNat place
  have second := start.ofPlace_toNat piece.2
  rw [finish] at below
  rw [InPacket, Contains, finish, UInt32.toNat_sub, first, second]
  dsimp only
  omega

theorem inBlock_iff {holds : ℕ → Prop} {block : ℕ × ℕ} (isBlock : Block low holds block)
    {seq : SequenceNumber32} :
    InBlock seq (numberBlock start block) ↔
      ∃ place, seq = start.ofPlace place ∧ block.1 ≤ place ∧ place < block.2 := by
  obtain ⟨above, order, below, -⟩ := isBlock
  have length : ((start.ofPlace block.2).value - (start.ofPlace block.1).value).toNat =
      block.2 - block.1 := ofPlace_value_sub order.le (by omega)
  rw [InBlock, numberBlock, length]
  dsimp only
  constructor
  · intro inside
    refine ⟨block.1 + (seq.value - (start.ofPlace block.1).value).toNat, ?_, by omega, by omega⟩
    rw [← ofPlace_plus, plus]
    exact congrArg SequenceNumber32.mk (add_sub_cancel _ _).symm
  · rintro ⟨place, rfl, lower, upper⟩
    rw [ofPlace_value_sub lower (by omega)]
    omega

end Places

section Runs

variable {start : SequenceNumber32} {stream : List UInt8} {receiver reached : Receiver} {next : ℕ}
  {pieces : List Piece} {blocks listed : List (ℕ × ℕ)}

theorem Inv.inPacket_iff {piece : Piece} {place : ℕ} (inv : Inv start stream receiver next pieces blocks)
    (member : piece ∈ pieces) (lower : receiver.extracted.length ≤ place)
    (upper : place < receiver.extracted.length + 2 ^ 31) :
    InPacket (start.ofPlace place) (start.ofPlace piece.2, piece.1) ↔ Contains piece place :=
  Tcp.inPacket_iff (inv.held.chained.mem member).1 (inv.held.below piece member) lower upper

theorem Inv.counted_eq {piece : Piece} (inv : Inv start stream receiver next pieces blocks)
    (member : piece ∈ pieces) (later : next < finish piece) :
    counted receiver.buffer.gotFin stream.length next = next := by
  have inside := (inv.held.right piece member).inside
  rw [counted, if_neg]
  rintro ⟨-, rfl⟩
  exact absurd later (Nat.not_lt.mpr inside)

theorem Inv.wellFormed (inv : Inv start stream receiver next pieces blocks)
    (separate : Separate blocks) : WellFormed receiver.buffer := by
  have order := inv.held.order
  have near := inv.held.near
  have member : ∀ block ∈ receiver.buffer.sackList, ∃ places ∈ blocks,
      numberBlock start places = block := by
    intro block isBlock
    rw [inv.sacks] at isBlock
    exact List.mem_map.mp isBlock
  constructor
  · rw [inv.sacks, List.length_map]
    exact separate.few
  · intro block isBlock
    obtain ⟨places, isPlaces, rfl⟩ := member block isBlock
    obtain ⟨above, some_bytes, below, -⟩ := inv.beyond places isPlaces
    exact (ofPlace_less start (by omega) (by omega)).mpr some_bytes
  · intro block isBlock
    obtain ⟨places, isPlaces, rfl⟩ := member block isBlock
    obtain ⟨above, some_bytes, below, inside⟩ := inv.beyond places isPlaces
    obtain ⟨later, piece, isPiece, contains⟩ := inside places.1 (Nat.le_refl _) some_bytes
    have expects := inv.expects
    rw [inv.counted_eq isPiece (later.trans contains.2)] at expects
    rw [expects]
    exact (ofPlace_greater start (by omega) (by omega)).mpr later
  · intro block isBlock seq within
    obtain ⟨places, isPlaces, rfl⟩ := member block isBlock
    have beyond := inv.beyond places isPlaces
    obtain ⟨place, rfl, lower, upper⟩ := (inBlock_iff beyond).mp within
    obtain ⟨-, piece, isPiece, contains⟩ := beyond.inside place lower upper
    have above := beyond.above
    have below := beyond.below
    refine ⟨(start.ofPlace piece.2, piece.1), ?_, ?_⟩
    · rw [inv.held.data]
      exact List.mem_map_of_mem isPiece
    · exact (inv.inPacket_iff isPiece (by omega) (by omega)).mpr contains
  · rw [inv.sacks, List.pairwise_map]
    refine separate.apart.imp_of_mem ?_
    intro one other isOne isOther apart seq inOne inOther
    have first := inv.beyond one isOne
    have second := inv.beyond other isOther
    obtain ⟨place, rfl, lower, upper⟩ := (inBlock_iff first).mp inOne
    obtain ⟨same, number, otherLower, otherUpper⟩ := (inBlock_iff second).mp inOther
    have firstAbove := first.above
    have firstBelow := first.below
    have secondAbove := second.above
    have secondBelow := second.below
    rw [ofPlace_inj start (by omega) (by omega)] at number
    rcases apart with before | behind
    · omega
    · omega

theorem Inv.apart_of_keepsReported {place count first stop : ℕ} {kept : List Piece} {left : UInt32}
    (inv : Inv start stream receiver next pieces blocks)
    (inside : place + count ≤ stream.length)
    (high : receiver.trimmedEnd start (place + count) < receiver.extracted.length + 2 ^ 31)
    (keeps : KeepsReported start stream receiver (.add place count))
    (trimmed : Trimmed pieces receiver.buffer.size (max place next)
      (receiver.trimmedEnd start (place + count)) kept left first stop)
    (swallowed : Swallowed pieces (max place next) (receiver.trimmedEnd start (place + count)) kept
      first)
    (later : next < first) : ∀ block ∈ blocks, Apart (first, stop) block := by
  have order := inv.held.order
  have firstHead := trimmed.head_le
  have stopTail := trimmed.le_tail
  have some_left := trimmed.some_left
  have behind : next < place := by
    by_contra early
    rw [max_eq_right (Nat.le_of_not_lt early)] at swallowed
    rcases swallowed.begins with starts | stored
    · omega
    · exact inv.isOpen stored
  have outOfOrder : receiver.nextPlace stream < place := by
    rw [inv.nextPlace_eq, counted]
    split
    · omega
    · exact behind
  rw [max_eq_left behind.le] at firstHead
  intro block isBlock
  have beyond := inv.beyond block isBlock
  have blockOrder := beyond.order
  have blockAbove := beyond.above
  have blockBelow := beyond.below
  by_contra meets
  rw [Apart] at meets
  dsimp only at meets
  -- A byte of both is in a packet that the segment swallows.
  obtain ⟨-, piece, isPiece, contains⟩ := beyond.inside (max first block.1) (by omega) (by omega)
  have pieceAbove := (inv.held.chained.mem isPiece).1
  have pieceBelow := inv.held.below piece isPiece
  obtain ⟨starts, ends⟩ := contains
  rcases swallowed.inside piece isPiece with stays | ⟨ahead, before⟩
  · rcases trimmed.apart piece stays with early | late
    · omega
    · omega
  · have away : ((start.ofPlace piece.2).value - (start.ofPlace place).value).toNat =
        piece.2 - place := ofPlace_value_sub (by omega) (by omega)
    refine keeps outOfOrder (start.ofPlace piece.2, piece.1) ?_ ⟨?_, first - place, ?_, ?_⟩ ?_
    · rw [inv.held.data]
      exact List.mem_map_of_mem isPiece
    · dsimp only
      rw [away]
      rw [finish] at before
      omega
    · dsimp only
      rw [away]
      omega
    · intro other isOther within
      rw [inv.held.data] at isOther
      obtain ⟨held, isHeld, rfl⟩ := List.mem_map.mp isOther
      rw [Nat.add_sub_cancel' (by omega), inv.inPacket_iff isHeld (by omega) (by omega)] at within
      obtain ⟨lower, upper⟩ := within
      rcases swallowed.inside held isHeld with stays | ⟨ahead, -⟩
      · rcases trimmed.apart held stays with early | late
        · omega
        · omega
      · omega
    · refine ⟨numberBlock start block, ?_, max first block.1 - piece.2, ?_, ?_⟩
      · rw [inv.sacks]
        exact List.mem_map_of_mem isBlock
      · rw [finish] at ends
        dsimp only
        omega
      · rw [finish] at pieceBelow ends
        rw [inBlock_iff beyond]
        refine ⟨max first block.1, ?_, by omega, by omega⟩
        dsimp only
        rw [ofPlace_plus, UInt32.toNat_ofNat', Nat.mod_eq_of_lt (by omega),
          Nat.add_sub_cancel' starts]

theorem Added.reportsFirst {head tail next' : ℕ} {pieces' : List Piece}
    (inv : Inv start stream receiver next pieces blocks)
    (after : Inv start stream reached next' pieces' listed) (inside : tail ≤ stream.length)
    (high : tail < receiver.extracted.length + 2 ^ 31) (nextHead : next ≤ head)
    (added : Added start stream next receiver reached pieces blocks listed head tail) :
    ReportsFirst receiver.buffer reached.buffer := by
  intro held isHeld fresh outOfOrder
  cases added with
  | nothing data same => exact absurd (data ▸ isHeld) fresh
  | @stored kept left first stop trimmed swallowed data lists =>
      have order := inv.held.order
      have near := inv.held.near
      have firstHead := trimmed.head_le
      have stopTail := trimmed.le_tail
      have some_left := trimmed.some_left
      rw [data] at isHeld
      obtain ⟨piece, isPiece, rfl⟩ := List.mem_map.mp isHeld
      obtain rfl : piece = slice stream first stop := by
        rcases List.mem_cons.mp ((insertPiece_perm _ _).mem_iff.mp isPiece) with same | stays
        · exact same
        · refine absurd ?_ fresh
          rw [inv.held.data]
          exact List.mem_map_of_mem (trimmed.sublist.subset stays)
      have later : next < first := by
        have counts := le_counted receiver.buffer.gotFin stream.length next
        have close : counted receiver.buffer.gotFin stream.length next ≤ next + 1 := by
          rw [counted]
          split
          · exact Nat.le_refl _
          · exact Nat.le_succ _
        change (start.ofPlace first).greater _ = true at outOfOrder
        rw [inv.expects, ofPlace_greater start (by omega) (by omega)] at outOfOrder
        omega
      obtain ⟨block, rest, rfl, lower, upper⟩ := lists.first later
      refine ⟨numberBlock start block, rest.map (numberBlock start), after.sacks, ?_⟩
      intro seq within
      have length : (slice stream first stop).1.length = stop - first := slice_length (by omega)
      change (seq.value - (start.ofPlace first).value).toNat < (slice stream first stop).1.length
        at within
      rw [inBlock_iff (after.beyond block (by simp))]
      refine ⟨first + (seq.value - (start.ofPlace first).value).toNat, ?_, by omega, by omega⟩
      rw [← ofPlace_plus, plus]
      exact congrArg SequenceNumber32.mk (add_sub_cancel _ _).symm

end Runs

section Results

variable (start : SequenceNumber32) (stream : List UInt8)

def Listing (receiver : Receiver) : Prop :=
  ∃ next pieces blocks, Inv start stream receiver next pieces blocks ∧ Separate blocks

def FitsList (receiver : Receiver) (action : Action) : Prop :=
  Fits start stream receiver action ∧ KeepsReported start stream receiver action

instance (receiver : Receiver) (action : Action) : Decidable (FitsList start stream receiver action) :=
  inferInstanceAs (Decidable (_ ∧ _))

variable {start stream} in
theorem listing_step {receiver : Receiver} {action : Action} (listing : Listing start stream receiver)
    (fits : FitsList start stream receiver action) :
    ∃ reached, step start stream receiver action = some reached ∧ Listing start stream reached ∧
      ∀ place count, action = .add place count → ReportsFirst receiver.buffer reached.buffer := by
  obtain ⟨next, pieces, blocks, inv, separate⟩ := listing
  obtain ⟨⟨reach, judged⟩, keeps⟩ := fits
  cases action with
  | add place count =>
      obtain ⟨reached, next', pieces', blocks', stepped, after, added⟩ := step_add inv reach judged
      obtain ⟨inside, -, -, -⟩ := reach
      have high := Nat.lt_of_le_of_lt (le_counted true stream.length _) judged.2
      have tailEnd : receiver.trimmedEnd start (place + count) ≤ place + count := by
        rw [Receiver.trimmedEnd]
        cases receiver.windowEnd start with
        | none => exact Nat.le_refl _
        | some limit => exact Nat.min_le_left _ _
      refine ⟨reached, stepped, ⟨next', pieces', blocks', after, ?_⟩, fun _ _ _ =>
        added.reportsFirst inv after (tailEnd.trans inside) high (le_max_right _ _)⟩
      cases added with
      | nothing data same => exact same ▸ separate
      | stored trimmed swallowed data lists =>
          exact lists.separate separate
            (inv.apart_of_keepsReported inside high keeps trimmed swallowed)
  | extract maxSize =>
      obtain ⟨reached, pieces', stepped, kept⟩ := step_extract inv maxSize
      exact ⟨reached, stepped, ⟨next, pieces', blocks, kept, separate⟩, fun _ _ added => by cases added⟩
  | setFinSequence =>
      obtain ⟨reached, stepped, kept⟩ := step_setFinSequence inv reach
      exact ⟨reached, stepped, ⟨next, pieces, blocks, kept, separate⟩, fun _ _ added => by cases added⟩

/-- No assertion fails, every state has a well formed list, and every `Add` lists what it stored out
of order first. -/
structure ListsThroughout (receiver : Receiver) (actions : List Action) : Prop where
  ran : (run (step start stream) receiver actions).isSome
  wellFormed : Throughout (step start stream) (fun receiver => WellFormed receiver.buffer) receiver
    actions
  reportsFirst : ∀ earlier place count later before after,
    actions = earlier ++ .add place count :: later →
      run (step start stream) receiver earlier = some before →
        step start stream before (.add place count) = some after →
          ReportsFirst before.buffer after.buffer

theorem lists_throughout (maxBuffer : UInt32) (actions : List Action)
    (fits : Guarded (step start stream) (FitsList start stream) (initial start maxBuffer) actions) :
    ListsThroughout start stream (initial start maxBuffer) actions := by
  have begins : Listing start stream (initial start maxBuffer) :=
    ⟨0, [], [], inv_initial maxBuffer, Nat.zero_le _, List.Pairwise.nil⟩
  obtain ⟨ran, kept⟩ := run_progress (fun receiver action listing met => by
    obtain ⟨reached, stepped, listed, -⟩ := listing_step listing met
    exact ⟨reached, stepped, listed⟩) begins fits
  constructor
  · exact ran
  · intro first second receiver split reached
    obtain ⟨next, pieces, blocks, inv, separate⟩ := kept first second receiver split reached
    exact inv.wellFormed separate
  · rintro earlier place count later before after rfl reached stepped
    obtain ⟨other, happens, -, reports⟩ :=
      listing_step (kept earlier _ before rfl reached) (fits.append_right reached).1
    obtain rfl := Option.some.inj (stepped.symm.trans happens)
    exact reports place count rfl

/-- A block that is merged on both sides, and two segments in order that swallow packets. -/
def reporting : List Action :=
  [.add 2 1, .add 4 1, .add 3 1, .add 7 1, .add 0 4, .extract 3, .add 5 4]

theorem lists_throughout_reporting :
    ListsThroughout ⟨0xfffffffd⟩ [1, 2, 3, 4, 5, 6, 7, 8, 9] (initial ⟨0xfffffffd⟩ 32768) reporting :=
  lists_throughout ⟨0xfffffffd⟩ [1, 2, 3, 4, 5, 6, 7, 8, 9] 32768 reporting (by decide +kernel)

/-- The places 2 and 3 are stored, then 1 to 4 around them: both blocks are listed. -/
theorem blocks_overlap :
    ∃ receiver, run (step ⟨0⟩ [1, 2, 3, 4, 5, 6]) (initial ⟨0⟩ 32768) [.add 2 2, .add 1 4] =
        some receiver ∧
      receiver.buffer.sackList = [(⟨1⟩, ⟨5⟩), (⟨2⟩, ⟨4⟩)] ∧ ¬ WellFormed receiver.buffer := by
  refine ⟨_, rfl, rfl, fun wellFormed => ?_⟩
  have disjoint := (List.pairwise_cons.mp wellFormed.disjoint).1 _ (List.mem_singleton_self _)
  exact disjoint ⟨2⟩ (by decide) (by decide)

end Results

end FISim.Tcp
