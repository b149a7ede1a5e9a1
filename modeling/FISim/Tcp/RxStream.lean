import FISim.Tcp.RxInsertion

/-!
A receive buffer that is offered segments of one stream: what it holds, what it has handed out,
and that together they are the bytes of the stream.
-/

namespace FISim.Tcp

open Pieces SequenceNumber32 TcpRxBuffer Transition

section Steps

variable {start : SequenceNumber32} {stream : List UInt8}

/-- The place of `NextRxSequence` in the stream. -/
theorem Inv.nextPlace_eq {receiver : Receiver} {next : ℕ} {pieces : List Piece}
    {blocks : List (ℕ × ℕ)} (inv : Inv start stream receiver next pieces blocks) :
    receiver.nextPlace stream = counted receiver.buffer.gotFin stream.length next := by
  have order := inv.held.order
  rw [Receiver.nextPlace, inv.held.avail, Nat.add_sub_cancel' order]

theorem Inv.nextPlace_near {receiver : Receiver} {next : ℕ} {pieces : List Piece}
    {blocks : List (ℕ × ℕ)} (inv : Inv start stream receiver next pieces blocks) :
    receiver.nextPlace stream < receiver.extracted.length + 2 ^ 31 := by
  have order := inv.held.order
  have near := inv.held.near
  rw [inv.nextPlace_eq, counted]
  split
  · rename_i ended
    by_cases empty : next = receiver.extracted.length
    · omega
    · obtain ⟨piece, member, contains⟩ := inv.held.covered (next - 1) (by omega) (by omega)
      have stops := contains.2
      have inside := (inv.held.right piece member).inside
      have last := inv.ends piece member (by rw [finish] at *; omega)
      omega
  · exact near

theorem Inv.windowEnd_eq {receiver : Receiver} {next : ℕ} {first : Piece} {rest : List Piece}
    {blocks : List (ℕ × ℕ)} (inv : Inv start stream receiver next (first :: rest) blocks) :
    receiver.windowEnd start = some (first.2 + receiver.buffer.maxBuffer.toNat) := by
  have above := (inv.held.chained.mem (List.mem_cons_self)).1
  have below := inv.held.below first (by simp)
  rw [finish] at below
  have away := ofPlace_minus start above (by omega)
  rw [minus_toUInt32] at away
  rw [Receiver.windowEnd, inv.held.data]
  simp only [numbered_cons, List.head?_cons, Option.map_some, away]
  congr 2
  omega

theorem trimToWindow_spec {receiver : Receiver} {next place count : ℕ} {pieces : List Piece}
    {blocks : List (ℕ × ℕ)} (inv : Inv start stream receiver next pieces blocks)
    (reach : InReach stream receiver (.add place count))
    (judged : Judged start stream receiver (.add place count)) :
    ∃ head, receiver.buffer.trimToWindow (start.ofPlace place) (start.ofPlace (place + count)) =
        (start.ofPlace head, start.ofPlace (receiver.trimmedEnd start (place + count))) ∧
      (max place (receiver.nextPlace stream) < receiver.trimmedEnd start (place + count) →
        head = max place (receiver.nextPlace stream)) ∧
      (receiver.trimmedEnd start (place + count) ≤ max place (receiver.nextPlace stream) →
        receiver.trimmedEnd start (place + count) = place + count ∧ pieces = [] ∧
            head = max place (receiver.nextPlace stream) ∨
          head = receiver.trimmedEnd start (place + count)) := by
  obtain ⟨-, early, late, -⟩ := reach
  obtain ⟨window, high⟩ := judged
  have nextNear := inv.nextPlace_near
  have tailHigh := Nat.lt_of_le_of_lt (le_counted true stream.length _) high
  have lower := inv.held.order
  have nextLow : receiver.extracted.length ≤ receiver.nextPlace stream := by
    rw [inv.nextPlace_eq]
    exact Nat.le_trans lower (le_counted _ _ _)
  have expects := inv.expects
  rw [← inv.nextPlace_eq] at expects
  have headSeq : (if (start.ofPlace place).less (start.ofPlace (receiver.nextPlace stream)) then
      start.ofPlace (receiver.nextPlace stream) else start.ofPlace place) =
        start.ofPlace (max place (receiver.nextPlace stream)) := by
    have before := ofPlace_less start late early
    by_cases behind : place < receiver.nextPlace stream
    · rw [if_pos (before.mpr behind), max_eq_right (Nat.le_of_lt behind)]
    · rw [if_neg (before.not.mpr behind), max_eq_left (Nat.le_of_not_lt behind)]
  rw [trimToWindow, expects, headSeq, inv.held.data]
  cases pieces with
  | nil =>
      have open_end : receiver.windowEnd start = none := by
        rw [Receiver.windowEnd, inv.held.data]
        rfl
      have whole : receiver.trimmedEnd start (place + count) = place + count := by
        rw [Receiver.trimmedEnd, open_end]
        rfl
      refine ⟨max place (receiver.nextPlace stream), ?_, fun _ => rfl,
        fun _ => Or.inl ⟨whole, rfl, rfl⟩⟩
      rw [whole]
      rfl
  | cons first rest =>
      have above := (inv.held.chained.mem (List.mem_cons_self)).1
      have limit := inv.windowEnd_eq
      obtain ⟨limitLow, limitHigh⟩ := window _ limit
      have ends : receiver.trimmedEnd start (place + count) =
          min (place + count) (first.2 + receiver.buffer.maxBuffer.toNat) := by
        rw [Receiver.trimmedEnd, limit]
        rfl
      rw [ends] at tailHigh ⊢
      have tailSeq : (if (start.ofPlace (first.2 + receiver.buffer.maxBuffer.toNat)).less
          (start.ofPlace (place + count)) then
            start.ofPlace (first.2 + receiver.buffer.maxBuffer.toNat)
          else start.ofPlace (place + count)) =
            start.ofPlace (min (place + count) (first.2 + receiver.buffer.maxBuffer.toNat)) := by
        have before := ofPlace_less start limitLow limitHigh
        by_cases beyond : first.2 + receiver.buffer.maxBuffer.toNat < place + count
        · rw [if_pos (before.mpr beyond), min_eq_right (Nat.le_of_lt beyond)]
        · rw [if_neg (before.not.mpr beyond), min_eq_left (Nat.le_of_not_lt beyond)]
      have before : (start.ofPlace (min (place + count)
          (first.2 + receiver.buffer.maxBuffer.toNat))).less
            (start.ofPlace (max place (receiver.nextPlace stream))) = true ↔ _ :=
        ofPlace_less start (by omega) (by omega)
      simp only [numbered_cons, ofPlace_plus, tailSeq]
      by_cases inverted : min (place + count) (first.2 + receiver.buffer.maxBuffer.toNat) <
          max place (receiver.nextPlace stream)
      · refine ⟨_, by rw [if_pos (before.mpr inverted)], ?_, fun _ => Or.inr rfl⟩
        omega
      · refine ⟨_, by rw [if_neg (before.not.mpr inverted)], fun _ => rfl, ?_⟩
        intro order
        exact Or.inr (by omega)

theorem Inv.offered {receiver : Receiver} {next : ℕ} {pieces : List Piece}
    {blocks : List (ℕ × ℕ)} (inv : Inv start stream receiver next pieces blocks) (place tail : ℕ)
    (known : ∀ byte, place ≤ byte → byte < tail →
      byte < receiver.extracted.length ∨ Stored pieces byte) :
    Inv start stream { receiver with received := (place, tail) :: receiver.received } next pieces
      blocks := by
  constructor
  · exact inv.held
  · exact inv.extracted
  · exact inv.isOpen
  · exact inv.expects
  · exact inv.fin
  · exact inv.ends
  · intro byte
    rw [received_cons, inv.known]
    constructor
    · rintro (⟨lower, upper⟩ | before)
      · exact known byte lower upper
      · exact before
    · exact Or.inr
  · exact inv.sacks
  · exact inv.beyond

theorem Inv.known_before {receiver : Receiver} {next byte : ℕ} {pieces : List Piece}
    {blocks : List (ℕ × ℕ)} (inv : Inv start stream receiver next pieces blocks)
    (before : byte < next) : byte < receiver.extracted.length ∨ Stored pieces byte := by
  by_cases past : byte < receiver.extracted.length
  · exact Or.inl past
  · exact Or.inr (inv.held.covered byte (by omega) before)

/-- What an `Add` of the places from `head` to `tail` does to the packets and to the list. -/
inductive Added (start : SequenceNumber32) (stream : List UInt8) (next : ℕ)
    (receiver reached : Receiver) (pieces : List Piece) (blocks listed : List (ℕ × ℕ))
    (head tail : ℕ) : Prop
  | nothing (data : reached.buffer.data = receiver.buffer.data) (same : listed = blocks)
  | stored {kept : List Piece} {left : UInt32} {first stop : ℕ}
      (trimmed : Trimmed pieces receiver.buffer.size head tail kept left first stop)
      (swallowed : Swallowed pieces head tail kept first)
      (data : reached.buffer.data = numbered start (insertPiece (slice stream first stop) kept))
      (lists : Lists next (first, stop) blocks listed)

theorem step_add {receiver : Receiver} {next place count : ℕ} {pieces : List Piece}
    {blocks : List (ℕ × ℕ)} (inv : Inv start stream receiver next pieces blocks)
    (reach : InReach stream receiver (.add place count))
    (judged : Judged start stream receiver (.add place count)) :
    ∃ reached next' pieces' blocks',
      step start stream receiver (.add place count) = some reached ∧
        Inv start stream reached next' pieces' blocks' ∧
        Added start stream next receiver reached pieces blocks blocks' (max place next)
          (receiver.trimmedEnd start (place + count)) := by
  obtain ⟨head, window, someLeft, nothingLeft⟩ := trimToWindow_spec inv reach judged
  obtain ⟨inside, early, late, end_late⟩ := reach
  have high := judged.2
  have tailHigh := Nat.lt_of_le_of_lt (le_counted true stream.length _) high
  have held := inv.held
  have order := held.order
  have nextLe := held.next_le inv.extracted.length_le
  have nextNear := inv.nextPlace_near
  have nextPlace := inv.nextPlace_eq
  have tailEnd : receiver.trimmedEnd start (place + count) ≤ place + count := by
    rw [Receiver.trimmedEnd]
    cases receiver.windowEnd start with
    | none => exact Nat.le_refl _
    | some limit => exact Nat.min_le_left _ _
  have length : ((stream.drop place).take count).length = count := by
    rw [List.length_take, List.length_drop]
    omega
  have short : count < 2 ^ 32 := by omega
  have tailSeq : (start.ofPlace place).plus (getSize ((stream.drop place).take count)) =
      start.ofPlace (place + count) := by
    rw [ofPlace_plus, getSize_toNat (by omega), length]
  have trims : receiver.buffer.trimToWindow (start.ofPlace place) ((start.ofPlace place).plus
      (getSize ((stream.drop place).take count))) =
        (start.ofPlace head, start.ofPlace (receiver.trimmedEnd start (place + count))) := by
    rw [tailSeq, window]
  simp only [step, TcpRxBuffer.add, trims, held.data]
  generalize receiver.trimmedEnd start (place + count) = tail at *
  have before : ∀ byte, place ≤ byte → byte < tail → byte < max place (receiver.nextPlace stream) →
      byte < receiver.extracted.length ∨ Stored pieces byte := by
    intro byte lower upper earlier
    apply inv.known_before
    rw [nextPlace, counted] at earlier
    split at earlier
    · omega
    · omega
  by_cases leaves : max place (receiver.nextPlace stream) < tail
  · have isHead := someLeft leaves
    have uncounted : receiver.nextPlace stream = next := by
      rw [nextPlace, counted, if_neg]
      rintro ⟨got, ended⟩
      rw [nextPlace, counted, if_pos ⟨got, ended⟩] at leaves
      omega
    rw [uncounted] at isHead leaves before early late
    have expects := inv.expects
    rw [← nextPlace, uncounted] at expects
    rcases removeOverlaps_spec start head receiver.buffer.size held.chained held.below
      (by omega) (show head < tail by omega) tailHigh (Nat.le_of_eq held.size.symm) with
      ⟨kept, left, first, stop, looped, trimmed, swallowed⟩ |
      ⟨first, stop, looped, crossed, near, stored, -⟩
    · have firstHead := trimmed.head_le
      have some_left := trimmed.some_left
      have stopTail := trimmed.le_tail
      have goesOn := ofPlace_greaterEqual start (show first < stop + 2 ^ 31 by omega) (by omega)
      obtain ⟨buffer, reached, joined, reported, inserted, after, data, lists⟩ :=
        insert_spec inv expects inside short (by omega) (by omega) (Nat.le_of_eq isHead) tailEnd high
          trimmed
      rw [isHead] at trimmed swallowed
      refine ⟨_, reached, joined, reported, ?_, after, .stored trimmed swallowed data lists⟩
      rw [looped, if_neg (by rw [goesOn]; omega), inserted]
      rfl
    · have ends := ofPlace_greaterEqual start (show first < stop + 2 ^ 31 by omega) (by omega)
      refine ⟨_, next, pieces, blocks, ?_, inv.offered place tail ?_, .nothing rfl rfl⟩
      · rw [looped]
        simp only [if_pos (ends.mpr crossed)]
        rw [← held.data]
        rfl
      · intro byte lower upper
        by_cases early : byte < max place next
        · exact before byte lower upper early
        · exact Or.inr (stored byte (by omega) upper)
  · have known : ∀ byte, place ≤ byte → byte < tail →
        byte < receiver.extracted.length ∨ Stored pieces byte :=
      fun byte lower upper => before byte lower upper (by omega)
    have unchanged : ∃ headSeq tailSeq,
        removeOverlaps (numbered start pieces) receiver.buffer.size (start.ofPlace head)
            (start.ofPlace tail) =
          { data := numbered start pieces, size := receiver.buffer.size, headSeq, tailSeq } ∧
        headSeq.greaterEqual tailSeq = true := by
      rcases nothingLeft (by omega) with ⟨whole, rfl, isHead⟩ | isHead
      · refine ⟨start.ofPlace head, start.ofPlace tail, rfl, ?_⟩
        rw [ofPlace_greaterEqual start (by omega) (by omega)]
        omega
      · rw [isHead]
        exact removeOverlaps_empty held.chained held.below receiver.buffer.size (start.ofPlace tail)
    obtain ⟨headSeq, tailSeq, looped, ends⟩ := unchanged
    refine ⟨_, next, pieces, blocks, ?_, inv.offered place tail known, .nothing rfl rfl⟩
    rw [looped]
    simp only [if_pos ends]
    rw [← held.data]
    rfl

theorem Beyond.taken {low next place : ℕ} {pieces left : List Piece} {block : ℕ × ℕ}
    (beyond : Beyond low next pieces block) (leaves : Leaves place pieces left)
    (further : low ≤ place) (most : place ≤ next) : Beyond place next left block := by
  have first := (beyond.inside block.1 (Nat.le_refl _) beyond.order).1
  have below := beyond.below
  constructor
  · omega
  · exact beyond.order
  · omega
  · intro byte lower upper
    obtain ⟨later, stored⟩ := beyond.inside byte lower upper
    exact ⟨later, (leaves.stored byte).mpr ⟨by omega, stored⟩⟩

section Extracts

variable {receiver : Receiver} {next : ℕ} {pieces : List Piece} {blocks : List (ℕ × ℕ)}
  (inv : Inv start stream receiver next pieces blocks)

include inv

/-- The bytes that an `Extract` of so many hands out. -/
theorem Inv.extracted_take (count : ℕ) :
    receiver.extracted ++ (stream.drop receiver.extracted.length).take count =
      stream.take (receiver.extracted.length + count) := by
  rw [List.take_add, ← List.prefix_iff_eq_take.mp inv.extracted]

theorem Inv.extracted_length {count : ℕ} (most : receiver.extracted.length + count ≤ next) :
    (receiver.extracted ++ (stream.drop receiver.extracted.length).take count).length =
      receiver.extracted.length + count := by
  have inside := inv.held.next_le inv.extracted.length_le
  rw [inv.extracted_take, List.length_take]
  omega

theorem Inv.taken {left : List Piece} {buffer : TcpRxBuffer} {count : ℕ}
    (most : receiver.extracted.length + count ≤ next)
    (held : Held start stream (receiver.extracted.length + count) next left buffer)
    (others : buffer = { receiver.buffer with
      data := buffer.data, size := buffer.size, availBytes := buffer.availBytes })
    (leaves : Leaves (receiver.extracted.length + count) pieces left) :
    Inv start stream { receiver with
      buffer
      extracted := receiver.extracted ++ (stream.drop receiver.extracted.length).take count } next
      left blocks := by
  have length := inv.extracted_length most
  have order := inv.held.order
  constructor
  · change Held start stream (receiver.extracted ++ _).length next left buffer
    rw [length]
    exact held
  · change receiver.extracted ++ _ <+: stream
    rw [inv.extracted_take]
    exact List.take_prefix _ _
  · exact fun stored => inv.isOpen ((leaves.stored next).mp stored).2
  · rw [others]
    exact inv.expects
  · rw [others]
    exact inv.fin
  · intro piece member ended
    obtain ⟨earlier, known, sameEnd⟩ := leaves.ends piece member
    have := inv.ends earlier known (by omega)
    change stream.length + 1 < (receiver.extracted ++ _).length + 2 ^ 31
    omega
  · intro byte
    change _ ↔ byte < (receiver.extracted ++ _).length ∨ Stored left byte
    rw [inv.known, length, leaves.stored]
    constructor
    · rintro (before | stored)
      · exact Or.inl (by omega)
      · by_cases past : byte < receiver.extracted.length + count
        · exact Or.inl past
        · exact Or.inr ⟨by omega, stored⟩
    · rintro (before | stored)
      · exact inv.known_before (by omega)
      · exact Or.inr stored.2
  · rw [others]
    exact inv.sacks
  · intro block member
    change Beyond (receiver.extracted ++ _).length next left block
    rw [length]
    exact (inv.beyond block member).taken leaves (Nat.le_add_right _ _) most

theorem step_extract (maxSize : UInt32) :
    ∃ reached pieces', step start stream receiver (.extract maxSize) = some reached ∧
      Inv start stream reached next pieces' blocks := by
  have order := inv.held.order
  have avail := inv.held.avail
  have most := extractSize_le maxSize receiver.buffer.availBytes
  by_cases nothing : min maxSize receiver.buffer.availBytes = 0
  · refine ⟨receiver, pieces, ?_, inv⟩
    simp [step, TcpRxBuffer.extract, nothing]
  · have some_bytes : 0 < (min maxSize receiver.buffer.availBytes).toNat := by
      rw [Nat.pos_iff_ne_zero]
      exact fun zero => nothing (UInt32.toNat_inj.mp zero)
    have near := inv.nextPlace_near
    rw [inv.nextPlace_eq] at near
    obtain ⟨first, rest, same, -⟩ := inv.held.first (by omega)
    have data := inv.held.data
    have held_some : receiver.buffer.data.isEmpty = false := by
      rw [data, same]
      rfl
    obtain ⟨left, buffer', loops, held, others, leaves⟩ :=
      extractLoop_spec (receiver.buffer.data.length + 2) inv.held
        (min maxSize receiver.buffer.availBytes) [] inv.expects (le_counted _ _ _) near (by omega)
        (by rw [data, numbered, List.length_map]; omega)
    refine ⟨_, left, ?_, inv.taken (by omega) held others leaves⟩
    rw [step, TcpRxBuffer.extract]
    simp only [if_neg nothing, held_some, Bool.false_eq_true, if_false, loops, List.nil_append]
    generalize min maxSize receiver.buffer.availBytes = extractSize at *
    have length := inv.extracted_length (show receiver.extracted.length + extractSize.toNat ≤ next by omega)
    have handed : ¬ getSize ((stream.drop receiver.extracted.length).take extractSize.toNat) = 0 := by
      intro zero
      rw [List.length_append] at length
      have size := getSize_toNat (show ((stream.drop receiver.extracted.length).take
        extractSize.toNat).length < 2 ^ 32 by have := extractSize.toNat_lt; omega)
      rw [zero] at size
      change 0 = _ at size
      omega
    simp only [Option.bind_eq_bind, Option.bind_some, if_neg handed]
    rfl

end Extracts

theorem step_setFinSequence {receiver : Receiver} {next : ℕ} {pieces : List Piece}
    {blocks : List (ℕ × ℕ)} (inv : Inv start stream receiver next pieces blocks)
    (reach : InReach stream receiver .setFinSequence) :
    ∃ reached, step start stream receiver .setFinSequence = some reached ∧
      Inv start stream reached next pieces blocks := by
  obtain ⟨unknown, near⟩ := reach
  have expects := inv.expects
  have nextPlace := inv.nextPlace_eq
  have order := inv.held.next_le inv.extracted.length_le
  rw [counted, if_neg (by simp [unknown])] at expects nextPlace
  rw [nextPlace] at near
  refine ⟨_, rfl, ?_⟩
  have buffer : receiver.buffer.setFinSequence (start.ofPlace stream.length) =
      { receiver.buffer with
        gotFin := true
        finSeq := start.ofPlace stream.length
        nextRxSeq := start.ofPlace (counted true stream.length next) } := by
    have same := ofPlace_inj start (show next < stream.length + 2 ^ 32 by omega) (by omega)
    rw [setFinSequence]
    by_cases ended : next = stream.length
    · simp [expects, ended, counted, ofPlace_next]
    · simp [expects, same.not.mpr ended, ended, counted]
  rw [buffer]
  constructor
  · constructor
    · exact inv.held.data
    · exact inv.held.chained
    · exact inv.held.below
    · exact inv.held.right
    · exact inv.held.size
    · exact inv.held.order
    · exact inv.held.covered
    · exact inv.held.avail
  · exact inv.extracted
  · exact inv.isOpen
  · rfl
  · exact fun _ => ⟨rfl, by omega⟩
  · exact inv.ends
  · exact inv.known
  · exact inv.sacks
  · exact inv.beyond

end Steps

/-- The bytes handed out are a prefix of the stream, `NextRxSequence` is the first byte not received
until it counts the FIN, the entries are disjoint parts of the stream and the sizes are right. -/
structure Delivers (start : SequenceNumber32) (stream : List UInt8) (receiver : Receiver) : Prop where
  extracted : receiver.extracted <+: stream
  next : ∃ next, (∀ place < next, Received receiver.received place) ∧
    ¬ Received receiver.received next ∧
    receiver.buffer.nextRxSeq =
      start.ofPlace (counted receiver.buffer.gotFin stream.length next) ∧
    receiver.extracted.length ≤ next ∧
    receiver.buffer.availBytes.toNat = next - receiver.extracted.length
  entries : ∃ pieces : List Piece, receiver.buffer.data = numbered start pieces ∧
    pieces.Pairwise (fun first second => finish first ≤ second.2) ∧
    (∀ piece ∈ pieces, IsPiece stream piece.1 piece.2) ∧
    receiver.buffer.size.toNat = total pieces

theorem Chained.pairwise {low : ℕ} {pieces : List Piece} (chained : Chained low pieces) :
    pieces.Pairwise fun first second => finish first ≤ second.2 := by
  induction pieces generalizing low with
  | nil => exact List.Pairwise.nil
  | cons piece rest ih =>
      constructor
      · exact fun other member => (chained.2.2.mem member).1
      · exact ih chained.2.2

theorem Inv.delivers {start : SequenceNumber32} {stream : List UInt8} {receiver : Receiver}
    {next : ℕ} {pieces : List Piece} {blocks : List (ℕ × ℕ)}
    (inv : Inv start stream receiver next pieces blocks) : Delivers start stream receiver := by
  have order := inv.held.order
  constructor
  · exact inv.extracted
  · refine ⟨next, ?_, ?_, inv.expects, order, inv.held.avail⟩
    · intro place before
      exact (inv.known place).mpr (inv.known_before before)
    · rw [inv.known]
      rintro (before | stored)
      · omega
      · exact inv.isOpen stored
  · exact ⟨pieces, inv.held.data, inv.held.chained.pairwise, inv.held.right, inv.held.size⟩

theorem step_inv {start : SequenceNumber32} {stream : List UInt8} {receiver : Receiver}
    {action : Action}
    (inv : ∃ next pieces blocks, Inv start stream receiver next pieces blocks)
    (fits : Fits start stream receiver action) :
    ∃ reached, step start stream receiver action = some reached ∧
      ∃ next pieces blocks, Inv start stream reached next pieces blocks := by
  obtain ⟨next, pieces, blocks, inv⟩ := inv
  obtain ⟨reach, judged⟩ := fits
  cases action with
  | add place count =>
      obtain ⟨reached, next', pieces', blocks', stepped, kept, -⟩ := step_add inv reach judged
      exact ⟨reached, stepped, next', pieces', blocks', kept⟩
  | extract maxSize =>
      obtain ⟨reached, pieces', stepped, kept⟩ := step_extract inv maxSize
      exact ⟨reached, stepped, next, pieces', blocks, kept⟩
  | setFinSequence =>
      obtain ⟨reached, stepped, kept⟩ := step_setFinSequence inv reach
      exact ⟨reached, stepped, next, pieces, blocks, kept⟩

/-- No assertion of a run whose steps all fit fails, and it delivers the stream throughout. -/
theorem delivers_throughout (start : SequenceNumber32) (stream : List UInt8) (maxBuffer : UInt32)
    (actions : List Action)
    (fits : Guarded (step start stream) (Fits start stream) (initial start maxBuffer) actions) :
    (run (step start stream) (initial start maxBuffer) actions).isSome ∧
      Throughout (step start stream) (Delivers start stream) (initial start maxBuffer) actions := by
  obtain ⟨ran, kept⟩ := run_progress (fun receiver action => step_inv)
    ⟨0, [], [], inv_initial maxBuffer⟩ fits
  refine ⟨ran, ?_⟩
  intro first second middle split reached
  obtain ⟨next, pieces, blocks, inv⟩ := kept first second middle split reached
  exact inv.delivers

/-- Two segments that overlap out of order, a cut by `Extract`, and the FIN before the last bytes. -/
def reordered : List Action :=
  [.add 3 3, .add 1 4, .setFinSequence, .add 0 4, .extract 2, .add 6 2, .extract 100]

theorem delivers_throughout_reordered :
    (run (step ⟨0xfffffffd⟩ [1, 2, 3, 4, 5, 6, 7, 8]) (initial ⟨0xfffffffd⟩ 32768) reordered).isSome ∧
      Throughout (step ⟨0xfffffffd⟩ [1, 2, 3, 4, 5, 6, 7, 8])
        (Delivers ⟨0xfffffffd⟩ [1, 2, 3, 4, 5, 6, 7, 8]) (initial ⟨0xfffffffd⟩ 32768) reordered :=
  delivers_throughout ⟨0xfffffffd⟩ [1, 2, 3, 4, 5, 6, 7, 8] 32768 reordered (by decide +kernel)

section Far

variable {first second : Packet}

/-- The buffer behind a segment of 2^31 - 1 bytes. -/
def filled (first : Packet) : TcpRxBuffer where
  nextRxSeq := ⟨2147483647⟩
  size := 2147483647
  availBytes := 2147483647
  data := [(⟨0⟩, first)]

theorem filled_eq (length : first.length = 2147483647) :
    ({ nextRxSeq := ⟨0⟩, maxBuffer := 32768 } : TcpRxBuffer).add first ⟨0⟩ =
      some (filled first, true) := by
  have size : getSize first = 2147483647 := by
    rw [getSize, length]
    rfl
  have fragment : createFragment first (((⟨0⟩ : SequenceNumber32).minus ⟨0⟩).toUInt32)
      (((⟨2147483647⟩ : SequenceNumber32).minus ⟨0⟩).toUInt32) = some first := by
    change createFragment first 0 2147483647 = some first
    rw [createFragment_eq _ _ _ (by rw [length]; decide) (by omega)]
    change some (first.take 2147483647) = _
    rw [List.take_of_length_le (by omega)]
  have moves : advance [(⟨0⟩, first)] { nextRxSeq := ⟨0⟩, size := 2147483647, data := [(⟨0⟩, first)] } =
      some (filled first) := by
    simp only [advance]
    rw [if_neg (by decide), if_neg (by decide), size]
    rfl
  rw [TcpRxBuffer.add, size]
  change (if _ then _ else (TcpRxBuffer.insert _ first ⟨0⟩
    { data := [], size := 0, headSeq := ⟨0⟩, tailSeq := ⟨2147483647⟩ }).map _) = _
  rw [if_neg (by decide), TcpRxBuffer.insert]
  simp only [fragment, Option.bind_eq_bind, Option.bind_some, size]
  rw [if_neg (by decide), if_neg (by decide)]
  simp only [reportSack]
  rw [if_neg (by decide), Option.bind_some]
  change Option.map _ ((advance [(⟨0⟩, first)]
    { nextRxSeq := ⟨0⟩, size := 2147483647, data := [(⟨0⟩, first)] }).bind _) = _
  rw [moves]
  rfl

/-- The buffer behind a second segment of 2^31 - 2 bytes that leaves a gap of one byte. -/
def crossed (first second : Packet) : TcpRxBuffer where
  nextRxSeq := ⟨2147483647⟩
  size := 4294967293
  availBytes := 2147483647
  sackList := [(⟨2147483648⟩, ⟨4294967294⟩)]
  data := [(⟨2147483648⟩, second), (⟨0⟩, first)]

theorem crossed_eq (length : second.length = 2147483646) :
    (filled first).add second ⟨2147483648⟩ = some (crossed first second, true) := by
  have secondSize : getSize second = 2147483646 := by
    rw [getSize, length]
    rfl
  have fragment : createFragment second (((⟨2147483648⟩ : SequenceNumber32).minus ⟨2147483648⟩).toUInt32)
      (((⟨4294967294⟩ : SequenceNumber32).minus ⟨2147483648⟩).toUInt32) = some second := by
    change createFragment second 0 2147483646 = some second
    rw [createFragment_eq _ _ _ (by rw [length]; decide) (by omega)]
    change some (second.take 2147483646) = _
    rw [List.take_of_length_le (by omega)]
  have tailSeq : (⟨2147483648⟩ : SequenceNumber32).plus 2147483646 = ⟨4294967294⟩ := by decide
  have next : (⟨2147483648⟩ : SequenceNumber32).less ⟨2147483647⟩ = false := by decide
  have window : (filled first).trimToWindow ⟨2147483648⟩ ⟨4294967294⟩ =
      (⟨2147483648⟩, ⟨4294967294⟩) := by
    have limit : ((⟨0⟩ : SequenceNumber32).plus 32768).less ⟨4294967294⟩ = false := by decide
    have order : (⟨4294967294⟩ : SequenceNumber32).less ⟨2147483648⟩ = false := by decide
    simp only [trimToWindow, filled, next, limit, order, Bool.false_eq_true, if_false]
  have loops : removeOverlaps [(⟨0⟩, first)] 2147483647 ⟨2147483648⟩ ⟨4294967294⟩ =
      { data := [(⟨0⟩, first)], size := 2147483647, headSeq := ⟨2147483648⟩,
        tailSeq := ⟨4294967294⟩ } := by
    have missed : (⟨0⟩ : SequenceNumber32).lessEqual ⟨4294967294⟩ = false := by decide
    simp only [removeOverlaps, missed, Bool.false_eq_true, if_false]
  have left : (⟨2147483648⟩ : SequenceNumber32).greaterEqual ⟨4294967294⟩ = false := by decide
  have count : ¬ ((⟨4294967294⟩ : SequenceNumber32).minus ⟨2147483648⟩).toUInt32 ≠ 2147483646 := by
    decide
  have fresh : decide ((⟨0⟩ : SequenceNumber32) = ⟨2147483648⟩) = false := by decide
  have stores : RxData.store ⟨2147483648⟩ second [(⟨0⟩, first)] =
      [(⟨2147483648⟩, second), (⟨0⟩, first)] := by
    have wraps : (⟨2147483648⟩ : SequenceNumber32).less ⟨0⟩ = true := by decide
    simp only [RxData.store, wraps, if_true]
  have later : (⟨2147483648⟩ : SequenceNumber32).greater ⟨2147483647⟩ = true := by decide
  have total : (2147483647 : UInt32) + 2147483646 = 4294967293 := by decide
  have few : ¬ 0 + 1 > 4 := by decide
  simp only [TcpRxBuffer.add, secondSize, tailSeq, window]
  simp only [filled, loops, left, Bool.false_eq_true, if_false, TcpRxBuffer.insert, fragment,
    Option.bind_eq_bind, Option.bind_some, secondSize, if_neg count, List.any_cons, List.any_nil,
    fresh, Bool.or_false, stores, reportSack, later, if_true, updateSackList, mergeBlocks, mergeOne,
    List.length_nil, List.length_cons, total, Option.pure_def, if_neg few, advance, next, countFin,
    Bool.false_and, Option.map, crossed]

theorem crossed_extract : (crossed first second).extract 1 = none := by
  have some_bytes : min 1 (2147483647 : UInt32) = 1 := by decide
  simp only [TcpRxBuffer.extract, crossed, some_bytes, List.isEmpty_cons, extractLoop]
  rw [if_neg (by decide), if_neg (by decide), if_neg (by decide), if_neg (by decide)]
  rfl

/-- Two long segments with a gap of one byte between them, and an `Extract`. -/
def far : List Action := [.add 0 2147483647, .add 2147483648 2147483646, .extract 1]

theorem far_run {stream : List UInt8} (length : stream.length = 4294967294) :
    Guarded (step ⟨0⟩ stream) (InReach stream) (initial ⟨0⟩ 32768) far ∧
      run (step ⟨0⟩ stream) (initial ⟨0⟩ 32768) far = none := by
  have firstLength : ((stream.drop 0).take 2147483647).length = 2147483647 := by
    rw [List.length_take, List.length_drop, length]
    rfl
  have secondLength : ((stream.drop 2147483648).take 2147483646).length = 2147483646 := by
    rw [List.length_take, List.length_drop, length]
    rfl
  have place : (⟨0⟩ : SequenceNumber32).ofPlace 2147483648 = ⟨2147483648⟩ := by decide
  have first : step ⟨0⟩ stream (initial ⟨0⟩ 32768) (.add 0 2147483647) = some
      { buffer := filled ((stream.drop 0).take 2147483647), received := [(0, 2147483647)] } := by
    simp only [step, initial, ofPlace_zero, filled_eq firstLength]
    rfl
  have second : ∃ received, step ⟨0⟩ stream
      { buffer := filled ((stream.drop 0).take 2147483647), received := [(0, 2147483647)] }
      (.add 2147483648 2147483646) = some
        { buffer := crossed ((stream.drop 0).take 2147483647)
            ((stream.drop 2147483648).take 2147483646), received } := by
    simp only [step, place, crossed_eq secondLength]
    exact ⟨_, rfl⟩
  obtain ⟨received, second⟩ := second
  have third : step ⟨0⟩ stream
      { buffer := crossed ((stream.drop 0).take 2147483647)
          ((stream.drop 2147483648).take 2147483646), received } (.extract 1) = none := by
    simp only [step, crossed_extract]
    rfl
  constructor
  · refine ⟨?_, ?_⟩
    · simp [InReach, Receiver.nextPlace, initial, counted, length]
    · intro next stepped
      obtain rfl := Option.some.inj (first.symm.trans stepped)
      refine ⟨?_, ?_⟩
      · simp [InReach, Receiver.nextPlace, filled, counted, length]
      · intro last happened
        obtain rfl := Option.some.inj (second.symm.trans happened)
        refine ⟨trivial, ?_⟩
        intro after extracted
        rw [third] at extracted
        cases extracted
  · simp only [far, run_cons, first, second, third, Option.bind_some, Option.bind_none]

theorem far_asserts :
    Guarded (step ⟨0⟩ (List.replicate 4294967294 0)) (InReach (List.replicate 4294967294 0))
        (initial ⟨0⟩ 32768) far ∧
      run (step ⟨0⟩ (List.replicate 4294967294 0)) (initial ⟨0⟩ 32768) far = none :=
  far_run List.length_replicate

end Far

end FISim.Tcp
