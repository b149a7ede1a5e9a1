import FISim.Lib.Transition
import FISim.Tcp.RxPieces

/-!
A receive buffer that is offered segments of one stream, and what `Extract` takes from it.
-/

namespace FISim.Tcp

open Pieces SequenceNumber32 TcpRxBuffer Transition

structure Receiver where
  buffer : TcpRxBuffer
  extracted : List UInt8 := []
  -- the segments, from a place of the stream to before another, up to the end of the window
  received : List (ℕ × ℕ) := []

inductive Action
  | add (place count : ℕ)
  | extract (maxSize : UInt32)
  | setFinSequence
  deriving DecidableEq

def Received (segments : List (ℕ × ℕ)) (place : ℕ) : Prop :=
  ∃ segment ∈ segments, segment.1 ≤ place ∧ place < segment.2

theorem received_cons (segment : ℕ × ℕ) (segments : List (ℕ × ℕ)) (place : ℕ) :
    Received (segment :: segments) place ↔
      segment.1 ≤ place ∧ place < segment.2 ∨ Received segments place := by
  simp [Received]

/-- A place, or the one behind the FIN if the FIN is known and comes at this place. -/
def counted (gotFin : Bool) (stop place : ℕ) : ℕ :=
  if gotFin = true ∧ place = stop then place + 1 else place

theorem le_counted (gotFin : Bool) (stop place : ℕ) : place ≤ counted gotFin stop place := by
  rw [counted]
  split
  · exact Nat.le_succ place
  · exact Nat.le_refl _

section Steps

variable (start : SequenceNumber32) (stream : List UInt8)

namespace Receiver

/-- The place of the first byte beyond the window that `Add` trims to. -/
def windowEnd (receiver : Receiver) : Option ℕ :=
  receiver.buffer.data.head?.map fun first =>
    receiver.extracted.length +
      (first.1.value - (start.ofPlace receiver.extracted.length).value).toNat +
        receiver.buffer.maxBuffer.toNat

def trimmedEnd (receiver : Receiver) (stop : ℕ) : ℕ :=
  (receiver.windowEnd start).elim stop (min stop)

def nextPlace (receiver : Receiver) : ℕ :=
  counted receiver.buffer.gotFin stream.length
    (receiver.extracted.length + receiver.buffer.availBytes.toNat)

end Receiver

def step (receiver : Receiver) : Action → Option Receiver
  | .add place count => do
      let (buffer, _) ← receiver.buffer.add ((stream.drop place).take count) (start.ofPlace place)
      return { receiver with
        buffer
        received := (place, receiver.trimmedEnd start (place + count)) :: receiver.received }
  | .extract maxSize => do
      let (buffer, outPkt) ← receiver.buffer.extract maxSize
      return { receiver with buffer, extracted := receiver.extracted ++ outPkt.getD [] }
  | .setFinSequence =>
      some { receiver with buffer := receiver.buffer.setFinSequence (start.ofPlace stream.length) }

def initial (maxBuffer : UInt32) : Receiver where
  buffer := { nextRxSeq := start, maxBuffer }

/-- A segment of the stream that is within less than 2^31 of the next expected byte, or the first
and only FIN. -/
def InReach (receiver : Receiver) : Action → Prop
  | .add place count =>
      place + count ≤ stream.length ∧ receiver.nextPlace stream < place + 2 ^ 31 ∧
        place < receiver.nextPlace stream + 2 ^ 31 ∧
        place + count ≤ receiver.nextPlace stream + 2 ^ 31
  | .extract _ => True
  | .setFinSequence =>
      receiver.buffer.gotFin = false ∧ stream.length < receiver.nextPlace stream + 2 ^ 31

/-- The end of the segment is within less than 2^31 of the window's end, and what the window lets
in ends, with the FIN behind it, less than 2^31 after the bytes handed out. -/
def Judged (receiver : Receiver) : Action → Prop
  | .add place count =>
      (∀ limit ∈ receiver.windowEnd start,
        limit < place + count + 2 ^ 31 ∧ place + count < limit + 2 ^ 31) ∧
      counted true stream.length (receiver.trimmedEnd start (place + count)) <
        receiver.extracted.length + 2 ^ 31
  | .extract _ => True
  | .setFinSequence => True

def Fits (receiver : Receiver) (action : Action) : Prop :=
  InReach stream receiver action ∧ Judged start stream receiver action

instance (receiver : Receiver) : ∀ action, Decidable (InReach stream receiver action)
  | .add _ _ => inferInstanceAs (Decidable (_ ∧ _ ∧ _ ∧ _))
  | .extract _ => inferInstanceAs (Decidable True)
  | .setFinSequence => inferInstanceAs (Decidable (_ ∧ _))

instance (receiver : Receiver) : ∀ action, Decidable (Judged start stream receiver action)
  | .add _ _ => inferInstanceAs (Decidable (_ ∧ _))
  | .extract _ => inferInstanceAs (Decidable True)
  | .setFinSequence => inferInstanceAs (Decidable True)

instance (receiver : Receiver) (action : Action) :
    Decidable (Fits start stream receiver action) :=
  inferInstanceAs (Decidable (_ ∧ _))

/-- The buffer holds pieces of the stream that cover what comes from one place to before another. -/
structure Held (low next : ℕ) (pieces : List Piece) (buffer : TcpRxBuffer) : Prop where
  data : buffer.data = numbered start pieces
  chained : Chained low pieces
  below : Below (low + 2 ^ 31) pieces
  right : ∀ piece ∈ pieces, IsPiece stream piece.1 piece.2
  size : buffer.size.toNat = total pieces
  order : low ≤ next
  covered : ∀ place, low ≤ place → place < next → Stored pieces place
  avail : buffer.availBytes.toNat = next - low

variable {start stream}

theorem Held.near {low next : ℕ} {pieces : List Piece} {buffer : TcpRxBuffer}
    (held : Held start stream low next pieces buffer) : next < low + 2 ^ 31 := by
  have order := held.order
  by_cases empty : next = low
  · omega
  · obtain ⟨piece, member, contains⟩ := held.covered (next - 1) (by omega) (by omega)
    have inside := held.below piece member
    have ends := contains.2
    omega

theorem Held.next_le {low next : ℕ} {pieces : List Piece} {buffer : TcpRxBuffer}
    (held : Held start stream low next pieces buffer) (inside : low ≤ stream.length) :
    next ≤ stream.length := by
  have order := held.order
  by_cases empty : next = low
  · omega
  · obtain ⟨piece, member, contains⟩ := held.covered (next - 1) (by omega) (by omega)
    have fits := (held.right piece member).inside
    have ends := contains.2
    rw [finish] at ends
    omega

theorem Held.first {low next : ℕ} {pieces : List Piece} {buffer : TcpRxBuffer}
    (held : Held start stream low next pieces buffer) (some_bytes : low < next) :
    ∃ piece rest, pieces = piece :: rest ∧ piece.2 = low := by
  obtain ⟨piece, member, contains⟩ := held.covered low (Nat.le_refl low) some_bytes
  cases pieces with
  | nil => simp at member
  | cons first rest =>
      refine ⟨first, rest, rfl, ?_⟩
      obtain ⟨above, positive, later⟩ := held.chained
      rcases List.mem_cons.mp member with rfl | behind
      · exact Nat.le_antisymm contains.1 above
      · have := (later.mem behind).1
        have := contains.1
        rw [finish] at *
        omega

theorem createFragment_eq (packet : Packet) (offset count : UInt32)
    (inside : offset.toNat + count.toNat ≤ packet.length) (short : packet.length < 2 ^ 32) :
    createFragment packet offset count =
      some ((packet.drop offset.toNat).take count.toNat) := by
  have fits : ¬ getSize packet < offset + count := by
    rw [UInt32.not_lt, UInt32.le_iff_toNat_le, getSize_toNat short, UInt32.toNat_add,
      Nat.mod_eq_of_lt (by omega)]
    exact inside
  rw [createFragment, if_neg fits]

theorem Held.dropFirst {low next : ℕ} {piece : Piece} {rest : List Piece} {buffer : TcpRxBuffer}
    (held : Held start stream low next (piece :: rest) buffer)
    (whole : finish piece ≤ next) :
    Held start stream (finish piece) next rest { buffer with
      data := numbered start rest
      size := buffer.size - getSize piece.1
      availBytes := buffer.availBytes - getSize piece.1 } := by
  obtain ⟨above, positive, later⟩ := held.chained
  have inside := held.below piece (by simp)
  have size := held.size
  have avail := held.avail
  have covered := held.covered
  have bytes : finish piece = piece.2 + piece.1.length := rfl
  have length := getSize_toNat (show piece.1.length < 2 ^ 32 by omega)
  rw [total_cons] at size
  have here : piece.2 = low := by
    obtain ⟨first, others, same, starts⟩ := held.first (by omega)
    rw [List.cons.injEq] at same
    rw [same.1]
    exact starts
  constructor
  · rfl
  · exact later
  · exact held.below.tail.raise (by omega)
  · exact fun other member => held.right other (List.mem_cons_of_mem piece member)
  · change (buffer.size - getSize piece.1).toNat = total rest
    rw [UInt32.toNat_sub_of_le]
    · omega
    · rw [UInt32.le_iff_toNat_le]
      omega
  · exact whole
  · intro place lower upper
    rcases (stored_cons piece rest place).mp (covered place (by omega) upper) with ⟨-, ends⟩ | stored
    · omega
    · exact stored
  · change (buffer.availBytes - getSize piece.1).toNat = next - finish piece
    rw [UInt32.toNat_sub_of_le]
    · omega
    · rw [UInt32.le_iff_toNat_le]
      omega

theorem Held.cutFirst {low next : ℕ} {piece : Piece} {rest : List Piece} {buffer : TcpRxBuffer}
    (held : Held start stream low next (piece :: rest) buffer) (here : piece.2 = low)
    (count : UInt32) (some_bytes : 0 < count.toNat) (part : count.toNat < piece.1.length)
    (reached : low + count.toNat ≤ next) :
    Held start stream (low + count.toNat) next
      ((piece.1.drop count.toNat, low + count.toNat) :: rest) { buffer with
        data := (RxData.store ((start.ofPlace piece.2).plus count) (piece.1.drop count.toNat)
          buffer.data).filter fun held => held.1 ≠ start.ofPlace piece.2
        size := buffer.size - count
        availBytes := buffer.availBytes - count } := by
  subst here
  have chained := chained_behind held.chained part
  have ends := finish_behind part.le
  have inside := held.below piece (by simp)
  have size := held.size
  have avail := held.avail
  have covered := held.covered
  have bytes : finish piece = piece.2 + piece.1.length := rfl
  rw [total_cons] at size
  change Held start stream (piece.2 + count.toNat) next (behind piece count.toNat :: rest) _
  constructor
  · change (RxData.store ((start.ofPlace piece.2).plus count) (piece.1.drop count.toNat)
      buffer.data).filter _ = _
    rw [held.data]
    exact store_behind held.chained held.below count some_bytes part
  · exact chained
  · intro other member
    rcases List.mem_cons.mp member with rfl | later
    · omega
    · have := held.below other (List.mem_cons_of_mem piece later)
      omega
  · intro other member
    rcases List.mem_cons.mp member with rfl | later
    · refine (held.right piece (by simp)).trans ⟨?_, ?_⟩
      · rw [behind, List.length_drop]
        omega
      · rw [behind, List.take_length]
    · exact held.right other (List.mem_cons_of_mem piece later)
  · change (buffer.size - count).toNat = _
    rw [UInt32.toNat_sub_of_le, total_cons, behind, List.length_drop]
    · omega
    · rw [UInt32.le_iff_toNat_le]
      omega
  · exact reached
  · intro place lower upper
    rw [stored_cons]
    rcases (stored_cons piece rest place).mp (covered place (by omega) upper) with here | stored
    · exact Or.inl ⟨lower, ends.symm ▸ here.2⟩
    · exact Or.inr stored
  · change (buffer.availBytes - count).toNat = _
    rw [UInt32.toNat_sub_of_le]
    · omega
    · rw [UInt32.le_iff_toNat_le]
      omega

/-- The two parts that `Extract` cuts a piece into. -/
theorem createFragment_split {packet : Packet} (count : UInt32) (part : count.toNat ≤ packet.length)
    (short : packet.length < 2 ^ 32) :
    createFragment packet 0 count = some (packet.take count.toNat) ∧
      createFragment packet count (getSize packet - count) = some (packet.drop count.toNat) := by
  have length := getSize_toNat short
  have left : (getSize packet - count).toNat = packet.length - count.toNat := by
    rw [UInt32.toNat_sub_of_le, length]
    rw [UInt32.le_iff_toNat_le, length]
    exact part
  constructor
  · rw [createFragment_eq packet 0 count (by change 0 + count.toNat ≤ _; omega) short]
    rfl
  · rw [createFragment_eq packet count _ (by omega) short, left, ← List.length_drop,
      List.take_length]

theorem extractSize_le (maxSize availBytes : UInt32) :
    (min maxSize availBytes).toNat ≤ availBytes.toNat := by
  rw [← UInt32.le_iff_toNat_le]
  change (if maxSize ≤ availBytes then maxSize else availBytes) ≤ _
  split
  · assumption
  · exact UInt32.le_refl _

/-- What an `Extract` up to a place leaves of the pieces, the first of which it may cut. -/
structure Leaves (place : ℕ) (pieces left : List Piece) : Prop where
  stored : ∀ byte, Stored left byte ↔ place ≤ byte ∧ Stored pieces byte
  ends : ∀ piece ∈ left, ∃ earlier ∈ pieces, finish earlier = finish piece

theorem Leaves.all {low : ℕ} {pieces : List Piece} (chained : Chained low pieces) :
    Leaves low pieces pieces where
  stored _ := ⟨fun stored => ⟨chained.stored_ge stored, stored⟩, fun both => both.2⟩
  ends piece member := ⟨piece, member, rfl⟩

theorem Leaves.behind {place : ℕ} {piece : Piece} {rest left : List Piece}
    (leaves : Leaves place rest left) (whole : finish piece ≤ place) :
    Leaves place (piece :: rest) left := by
  constructor
  · intro byte
    rw [leaves.stored, stored_cons]
    constructor
    · exact fun both => ⟨both.1, Or.inr both.2⟩
    · rintro ⟨beyond, contains | stored⟩
      · have := contains.2
        omega
      · exact ⟨beyond, stored⟩
  · intro other member
    obtain ⟨earlier, known, same⟩ := leaves.ends other member
    exact ⟨earlier, List.mem_cons_of_mem piece known, same⟩

theorem Leaves.cut {piece : Piece} {rest : List Piece} {count : ℕ}
    (later : Chained (finish piece) rest) (part : count < piece.1.length) :
    Leaves (piece.2 + count) (piece :: rest) (FISim.Tcp.behind piece count :: rest) := by
  have ends := finish_behind part.le
  have bytes : finish piece = piece.2 + piece.1.length := rfl
  constructor
  · intro byte
    rw [stored_cons, stored_cons, Contains, ends]
    constructor
    · rintro (⟨lower, upper⟩ | stored)
      · exact ⟨lower, Or.inl ⟨Nat.le_trans (Nat.le_add_right _ _) lower, upper⟩⟩
      · have beyond := later.stored_ge stored
        exact ⟨by omega, Or.inr stored⟩
    · rintro ⟨beyond, contains | stored⟩
      · exact Or.inl ⟨beyond, contains.2⟩
      · exact Or.inr stored
  · intro other member
    rcases List.mem_cons.mp member with rfl | later
    · exact ⟨piece, by simp, ends.symm⟩
    · exact ⟨other, List.mem_cons_of_mem piece later, rfl⟩

namespace TcpRxBuffer

theorem extractLoop_spec {after : ℕ} (fuel : ℕ) {low next : ℕ} {pieces : List Piece}
    {buffer : TcpRxBuffer} (held : Held start stream low next pieces buffer)
    (extractSize : UInt32) (outPkt : Packet) (expects : buffer.nextRxSeq = start.ofPlace after)
    (reached : next ≤ after) (near : after < low + 2 ^ 31) (some_left : extractSize.toNat ≤ next - low)
    (enough : pieces.length < fuel) :
    ∃ left buffer',
      extractLoop fuel extractSize outPkt buffer =
        some (buffer', outPkt ++ (stream.drop low).take extractSize.toNat) ∧
      Held start stream (low + extractSize.toNat) next left buffer' ∧
      buffer' = { buffer with
        data := buffer'.data, size := buffer'.size, availBytes := buffer'.availBytes } ∧
      Leaves (low + extractSize.toNat) pieces left := by
  induction fuel generalizing low pieces buffer extractSize outPkt with
  | zero => omega
  | succ fuel ih =>
      rw [extractLoop]
      by_cases done : extractSize = 0
      · refine ⟨pieces, buffer, ?_, ?_, rfl, ?_⟩
        · rw [if_pos done, done]
          simp
        · rw [done]
          exact held
        · rw [done]
          exact Leaves.all held.chained
      · rw [if_neg done]
        have order := held.order
        have some_bytes : 0 < extractSize.toNat := by
          rw [Nat.pos_iff_ne_zero]
          exact fun nothing => done (UInt32.toNat_inj.mp nothing)
        obtain ⟨piece, rest, rfl, here⟩ := held.first (by omega)
        have inside := held.below piece (by simp)
        have whole := held.right piece (by simp)
        have bytes : finish piece = piece.2 + piece.1.length := rfl
        have length := getSize_toNat (show piece.1.length < 2 ^ 32 by omega)
        have isNext : (start.ofPlace piece.2).lessEqual (start.ofPlace after) = true := by
          rw [ofPlace_lessEqual start (by omega) (by omega)]
          omega
        have data := held.data
        rw [numbered_cons] at data
        rw [← expects] at isNext
        simp only [data, if_pos isNext, UInt32.le_iff_toNat_le, length]
        by_cases fits : piece.1.length ≤ extractSize.toNat
        · have left := size_without (show piece.1.length < 2 ^ 32 by omega) fits
          obtain ⟨pieces, buffer', loops, kept, others, leaves⟩ :=
            ih (held.dropFirst (by omega)) (extractSize - getSize piece.1) (outPkt ++ piece.1) expects
              (by omega) (by omega) (by simpa using enough)
          rw [left, bytes, here, Nat.add_assoc, Nat.add_sub_cancel' fits] at kept leaves
          refine ⟨pieces, buffer', ?_, kept, others, leaves.behind (by omega)⟩
          rw [if_pos fits, loops, left, bytes, List.append_assoc, whole.append_take fits, here]
        · have part : extractSize.toNat < piece.1.length := by omega
          have cut := held.cutFirst here extractSize some_bytes part (by omega)
          have taken := whole.take_eq part.le
          have fragments := createFragment_split extractSize part.le (show piece.1.length < 2 ^ 32 by omega)
          obtain ⟨fuel, rfl⟩ : ∃ more, fuel = more + 1 := ⟨fuel - 1, by simp at enough; omega⟩
          refine ⟨_, _, ?_, cut, rfl, ?_⟩
          · rw [if_neg fits, fragments.1, fragments.2]
            simp only [Option.bind_eq_bind, Option.bind_some, extractLoop, if_pos, data]
            rw [← here, ← taken]
          · rw [← here]
            exact Leaves.cut held.chained.2.2 part

end TcpRxBuffer

end Steps

end FISim.Tcp
