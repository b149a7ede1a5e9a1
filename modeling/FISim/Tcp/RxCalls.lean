import FISim.Lib.Transition
import FISim.Tcp.RxPieces
import Mathlib.Data.Int.Init

/-!
The calls of a receive buffer, with any arguments in any order, and the places of its window.
-/

namespace FISim.Tcp

open Pieces SequenceNumber32 TcpRxBuffer Transition

namespace TcpRxBuffer

variable (buffer : TcpRxBuffer)

def maxRxSequence : SequenceNumber32 :=
  if buffer.gotFin then buffer.finSeq
  else
    match buffer.data with
    | [] => buffer.nextRxSeq.plus buffer.maxBuffer
    | first :: _ =>
        if buffer.nextRxSeq.greater first.1 then first.1.plus buffer.maxBuffer
        else buffer.nextRxSeq.plus buffer.maxBuffer

def setNextRxSequence (s : SequenceNumber32) : TcpRxBuffer := { buffer with nextRxSeq := s }

def setMaxBufferSize (s : UInt32) : TcpRxBuffer := { buffer with maxBuffer := s }

def incNextRxSequence : Option TcpRxBuffer :=
  if buffer.size = 0 then some { buffer with nextRxSeq := buffer.nextRxSeq.next } else none

end TcpRxBuffer

inductive Call
  | add (p : Packet) (sequenceNumber : SequenceNumber32)
  | extract (maxSize : UInt32)
  | setFinSequence (s : SequenceNumber32)
  | setMaxBufferSize (s : UInt32)
  | setNextRxSequence (s : SequenceNumber32)
  | incNextRxSequence
  deriving DecidableEq

def call (buffer : TcpRxBuffer) : Call → Option TcpRxBuffer
  | .add p sequenceNumber => (buffer.add p sequenceNumber).map Prod.fst
  | .extract maxSize => (buffer.extract maxSize).map Prod.fst
  | .setFinSequence s => some (buffer.setFinSequence s)
  | .setMaxBufferSize s => some (buffer.setMaxBufferSize s)
  | .setNextRxSequence s => some (buffer.setNextRxSequence s)
  | .incNextRxSequence => buffer.incNextRxSequence

def constructed (n : UInt32) : TcpRxBuffer := { nextRxSeq := ⟨n⟩ }

/-- Every byte that was not held before has a number less than `MaxRxSequence` was then. -/
def StoresWithin (before after : TcpRxBuffer) : Prop :=
  ∀ held ∈ after.data, held ∈ before.data ∨ ∀ byte < held.2.length,
    (held.1.plus (UInt32.ofNat byte)).less before.maxRxSequence = true

namespace TcpRxBuffer

variable (buffer : TcpRxBuffer)

/-- Where the window begins: with the first byte that is held, unless bytes before it are missing. -/
def windowStart : SequenceNumber32 :=
  match buffer.data with
  | [] => buffer.nextRxSeq
  | first :: _ => if buffer.nextRxSeq.greater first.1 then first.1 else buffer.nextRxSeq

def offset (s : SequenceNumber32) : ℤ := (s.minus buffer.windowStart).toInt

/-- The segment ends, or the window that begins with the first packet ends, at a limit or before. -/
def EndsBy (p : Packet) (sequenceNumber : SequenceNumber32) (limit : ℤ) : Prop :=
  buffer.offset sequenceNumber + p.length ≤ limit ∨
    ∃ first ∈ buffer.data.head?, buffer.offset first.1 + buffer.maxBuffer.toNat ≤ limit

/-- The segment begins less than 2^31 before the next expected byte and the window that begins
with the first packet, and does not end 2^31 behind that window. -/
def Near (p : Packet) (sequenceNumber : SequenceNumber32) : Prop :=
  buffer.offset buffer.nextRxSeq < buffer.offset sequenceNumber + 2 ^ 31 ∧
    ∀ first ∈ buffer.data.head?,
      buffer.offset first.1 + buffer.maxBuffer.toNat < buffer.offset sequenceNumber + 2 ^ 31 ∧
        buffer.offset sequenceNumber + p.length <
          buffer.offset first.1 + buffer.maxBuffer.toNat + 2 ^ 31

end TcpRxBuffer

/-- A segment of which nothing is left or that is left no byte behind the window or the FIN; no
other call moves the window away from what is held. -/
def Respects (buffer : TcpRxBuffer) : Call → Prop
  | .add p sequenceNumber =>
      buffer.Near p sequenceNumber ∧
        (buffer.EndsBy p sequenceNumber
            (max (buffer.offset sequenceNumber) (buffer.offset buffer.nextRxSeq)) ∨
          buffer.EndsBy p sequenceNumber buffer.maxBuffer.toNat ∧
            (buffer.gotFin = true → buffer.EndsBy p sequenceNumber (buffer.offset buffer.finSeq)))
  | .extract _ => True
  | .setFinSequence s =>
      s = buffer.nextRxSeq → buffer.offset buffer.nextRxSeq + 1 < 2 ^ 31
  | .setMaxBufferSize s =>
      s.toNat + 1 < 2 ^ 31 ∧ ∀ held ∈ buffer.data, buffer.offset held.1 + held.2.length ≤ s.toNat
  | .setNextRxSequence s =>
      ∀ first ∈ buffer.data.head?, 0 ≤ (s.minus first.1).toInt ∧ (s.minus first.1).toInt + 1 < 2 ^ 31
  | .incNextRxSequence => True

section Decidability

variable (buffer : TcpRxBuffer)

instance (p : Packet) (sequenceNumber : SequenceNumber32) (limit : ℤ) :
    Decidable (buffer.EndsBy p sequenceNumber limit) :=
  inferInstanceAs (Decidable (_ ∨ _))

instance (p : Packet) (sequenceNumber : SequenceNumber32) :
    Decidable (buffer.Near p sequenceNumber) :=
  inferInstanceAs (Decidable (_ ∧ _))

instance : ∀ happens, Decidable (Respects buffer happens)
  | .add _ _ => inferInstanceAs (Decidable (_ ∧ (_ ∨ _ ∧ (_ → _))))
  | .extract _ => inferInstanceAs (Decidable True)
  | .setFinSequence _ => inferInstanceAs (Decidable (_ → _))
  | .setMaxBufferSize _ => inferInstanceAs (Decidable (_ ∧ _))
  | .setNextRxSequence _ => inferInstanceAs (Decidable (∀ _, _))
  | .incNextRxSequence => inferInstanceAs (Decidable True)

end Decidability

section Places

variable {start : SequenceNumber32} {low place : ℕ}

theorem toInt_minus (seq other : SequenceNumber32) :
    (seq.minus other).toInt = ((seq.value - other.value).toNat : ℤ).bmod (2 ^ 32) := by
  rw [← minus_toUInt32]
  exact BitVec.toInt_eq_toNat_bmod _

theorem toInt_ofPlace_minus (before : low ≤ place + 2 ^ 31) (behind : place < low + 2 ^ 31) :
    ((start.ofPlace place).minus (start.ofPlace low)).toInt = (place : ℤ) - low := by
  have first := start.ofPlace_toNat place
  have second := start.ofPlace_toNat low
  rw [toInt_minus, Int.bmod_def, UInt32.toNat_sub, first, second]
  split
  · omega
  · omega

theorem exists_place (start seq : SequenceNumber32) (high : 2 ^ 31 ≤ low) :
    ∃ place, seq = start.ofPlace place ∧ low ≤ place + 2 ^ 31 ∧ place < low + 2 ^ 31 := by
  have bound := seq.value.toNat_lt
  have spelled := start.ofPlace_toNat low
  obtain ⟨place, same, before, behind⟩ : ∃ place,
      (start.value.toNat + place) % 2 ^ 32 = seq.value.toNat ∧ low ≤ place + 2 ^ 31 ∧
        place < low + 2 ^ 31 := by
    have startBound := start.value.toNat_lt
    refine ⟨low - 2 ^ 31 +
      (seq.value.toNat + 2 ^ 33 - start.value.toNat - (low - 2 ^ 31) % 2 ^ 32) % 2 ^ 32, ?_, ?_, ?_⟩
    · omega
    · omega
    · omega
  refine ⟨place, ?_, before, behind⟩
  rw [← start.ofPlace_toNat place] at same
  cases seq
  exact congrArg _ (UInt32.toNat_inj.mp same.symm)

end Places

/-- Where the window begins: with the first piece, unless it comes behind the next place. -/
def lowest (next : ℕ) : List Piece → ℕ
  | [] => next
  | first :: _ => min first.2 next

theorem lowest_le (next : ℕ) (pieces : List Piece) : lowest next pieces ≤ next := by
  cases pieces with
  | nil => exact Nat.le_refl next
  | cons first rest => exact Nat.min_le_right _ _

theorem Chained.le_lowest {low next : ℕ} {pieces : List Piece} (chained : Chained low pieces)
    (order : low ≤ next) : low ≤ lowest next pieces := by
  cases pieces with
  | nil => exact order
  | cons first rest => exact Nat.le_min.mpr ⟨chained.1, order⟩

theorem Chained.from_lowest {low : ℕ} {pieces : List Piece} (chained : Chained low pieces)
    (next : ℕ) : Chained (lowest next pieces) pieces := by
  cases pieces with
  | nil => trivial
  | cons first rest => exact ⟨Nat.min_le_left _ _, chained.2⟩

/-- The buffer holds pieces that lie in the window. -/
structure Windowed (start : SequenceNumber32) (low next : ℕ) (pieces : List Piece)
    (buffer : TcpRxBuffer) : Prop where
  data : buffer.data = numbered start pieces
  isLow : low = lowest next pieces
  chained : Chained low pieces
  ends : ∀ piece ∈ pieces, finish piece ≤ low + buffer.maxBuffer.toNat
  size : buffer.size.toNat = total pieces
  expects : buffer.nextRxSeq = start.ofPlace next
  near : next < low + 2 ^ 31
  fin : buffer.gotFin = true → buffer.nextRxSeq = buffer.finSeq → next + 1 < low + 2 ^ 31
  -- there are numbers for the 2^31 places before the window
  high : 2 ^ 31 ≤ low
  small : buffer.maxBuffer.toNat + 1 < 2 ^ 31

theorem exists_start (seq : SequenceNumber32) :
    ∃ start : SequenceNumber32, seq = start.ofPlace (2 ^ 31) := by
  refine ⟨⟨seq.value - UInt32.ofNat (2 ^ 31)⟩, ?_⟩
  rw [ofPlace, UInt32.sub_add_cancel]

theorem windowed_empty (buffer : TcpRxBuffer) (data : buffer.data = []) (size : buffer.size = 0)
    (small : buffer.maxBuffer.toNat + 1 < 2 ^ 31) :
    ∃ start, Windowed start (2 ^ 31) (2 ^ 31) [] buffer := by
  obtain ⟨start, expects⟩ := exists_start buffer.nextRxSeq
  refine ⟨start, data, rfl, trivial, by simp, ?_, expects, by omega, fun _ _ => by omega,
    Nat.le_refl _, small⟩
  rw [size]
  rfl

namespace Windowed

variable {start : SequenceNumber32} {low next : ℕ} {pieces : List Piece} {buffer : TcpRxBuffer}
  (windowed : Windowed start low next pieces buffer)

include windowed

theorem order : low ≤ next := windowed.isLow ▸ lowest_le next pieces

theorem below : Below (low + 2 ^ 31) pieces := by
  intro piece member
  have ends := windowed.ends piece member
  have small := windowed.small
  omega

theorem windowStart_eq : buffer.windowStart = start.ofPlace low := by
  have isLow := windowed.isLow
  have expects := windowed.expects
  have data := windowed.data
  have order := windowed.order
  have near := windowed.near
  cases pieces with
  | nil =>
      rw [windowStart, data, isLow]
      exact expects
  | cons first rest =>
      have above := windowed.chained.1
      have inside := windowed.below first (by simp)
      rw [finish] at inside
      rw [lowest] at isLow
      have compare := ofPlace_greater start (show next < first.2 + 2 ^ 31 by omega) (by omega)
      simp only [windowStart, data, numbered_cons, expects]
      by_cases held : first.2 < next
      · rw [if_pos (compare.mpr held), isLow, Nat.min_eq_left (by omega)]
      · rw [if_neg (compare.not.mpr held), isLow, Nat.min_eq_right (by omega)]

theorem offset_eq {place : ℕ} (before : low ≤ place + 2 ^ 31) (behind : place < low + 2 ^ 31) :
    buffer.offset (start.ofPlace place) = (place : ℤ) - low := by
  rw [offset, windowed.windowStart_eq, toInt_ofPlace_minus before behind]

theorem offset_nextRxSeq : buffer.offset buffer.nextRxSeq = (next : ℤ) - low := by
  have order := windowed.order
  have near := windowed.near
  rw [windowed.expects, windowed.offset_eq (by omega) near]

end Windowed

theorem windowed_of {start : SequenceNumber32} {low next : ℕ} {pieces : List Piece}
    {buffer : TcpRxBuffer} (data : buffer.data = numbered start pieces) (chained : Chained low pieces)
    (order : low ≤ next) (ends : ∀ piece ∈ pieces, finish piece ≤ low + buffer.maxBuffer.toNat)
    (size : buffer.size.toNat = total pieces) (expects : buffer.nextRxSeq = start.ofPlace next)
    (near : next < low + 2 ^ 31)
    (fin : buffer.gotFin = true → buffer.nextRxSeq = buffer.finSeq → next + 1 < low + 2 ^ 31)
    (high : 2 ^ 31 ≤ low) (small : buffer.maxBuffer.toNat + 1 < 2 ^ 31) :
    Windowed start (lowest next pieces) next pieces buffer := by
  have forward := chained.le_lowest order
  constructor
  · exact data
  · rfl
  · exact chained.from_lowest next
  · exact fun piece member => (ends piece member).trans (Nat.add_le_add_right forward _)
  · exact size
  · exact expects
  · omega
  · intro got counted
    have := fin got counted
    omega
  · omega
  · exact small

namespace TcpRxBuffer

variable {buffer after : TcpRxBuffer}

theorem reportSack_some {head tail : SequenceNumber32}
    (reports : buffer.reportSack head tail = some after) :
    ∃ sackList, after = { buffer with sackList } := by
  rw [reportSack] at reports
  split at reports
  · rename_i later
    rw [updateSackList, if_pos later] at reports
    obtain ⟨merged, -, updated⟩ := Option.bind_eq_some_iff.mp reports
    exact ⟨_, (Option.some.inj updated).symm⟩
  · obtain rfl := Option.some.inj reports
    exact ⟨_, rfl⟩

theorem countFin_moved (buffer : TcpRxBuffer) (got : buffer.countFin.gotFin = true) :
    buffer.countFin.nextRxSeq ≠ buffer.countFin.finSeq := by
  have apart (seq : SequenceNumber32) : seq.next ≠ seq := by
    intro same
    have values := congrArg (fun seq => seq.value.toNat) same
    simp only [SequenceNumber32.next, UInt32.toNat_add] at values
    have bound := seq.value.toNat_lt
    change (seq.value.toNat + 1) % 2 ^ 32 = seq.value.toNat at values
    omega
  rw [countFin] at got ⊢
  split
  · rename_i counted
    rw [Bool.and_eq_true, decide_eq_true_eq] at counted
    rw [counted.2]
    exact apart _
  · rename_i uncounted
    rw [if_neg uncounted] at got
    intro same
    exact uncounted (by simp [got, same])

/-- The loop of `Add` moves `m_nextRxSeq` to the end of a piece, or leaves it. -/
theorem advance_some {start : SequenceNumber32} {low next : ℕ} {pieces : List Piece}
    (above : ∀ piece ∈ pieces, low ≤ piece.2) (below : Below (low + 2 ^ 31) pieces)
    (order : low ≤ next) (near : next < low + 2 ^ 31) (expects : buffer.nextRxSeq = start.ofPlace next)
    (moves : advance (numbered start pieces) buffer = some after) :
    ∃ reached availBytes sackList,
      after = { buffer with nextRxSeq := start.ofPlace reached, availBytes, sackList } ∧
      (reached = next ∨ next ≤ reached ∧ ∃ piece ∈ pieces, reached = finish piece) := by
  induction pieces generalizing buffer next with
  | nil =>
      obtain rfl := Option.some.inj moves
      exact ⟨next, _, _, by rw [← expects], Or.inl rfl⟩
  | cons piece rest ih =>
      have aboveRest : ∀ other ∈ rest, low ≤ other.2 :=
        fun other member => above other (List.mem_cons_of_mem piece member)
      have pieceAbove := above piece (by simp)
      have inside := below piece (by simp)
      have bytes : finish piece = piece.2 + piece.1.length := rfl
      rw [numbered_cons, advance] at moves
      simp only [expects, ofPlace_less start (show piece.2 < next + 2 ^ 31 by omega) (by omega),
        ofPlace_greater start (show piece.2 < next + 2 ^ 31 by omega) (by omega)] at moves
      by_cases behind : piece.2 < next
      · rw [if_pos behind] at moves
        obtain ⟨reached, availBytes, sackList, isAfter, further⟩ :=
          ih aboveRest below.tail order near expects moves
        refine ⟨reached, availBytes, sackList, isAfter, further.imp_right ?_⟩
        rintro ⟨forward, other, member, ends⟩
        exact ⟨forward, other, List.mem_cons_of_mem piece member, ends⟩
      · rw [if_neg behind] at moves
        by_cases gap : next < piece.2
        · rw [if_pos gap] at moves
          obtain rfl := Option.some.inj moves
          exact ⟨next, _, _, by rw [← expects], Or.inl rfl⟩
        · rw [if_neg gap] at moves
          obtain ⟨cleared, -, goes⟩ := Option.bind_eq_some_iff.mp moves
          have number : (start.ofPlace piece.2).plus (getSize piece.1) =
              start.ofPlace (finish piece) := lastByteSeq_eq (by omega)
          obtain ⟨reached, availBytes, sackList, rfl, further⟩ :=
            ih aboveRest below.tail (show low ≤ finish piece by omega) inside number goes
          refine ⟨reached, availBytes, sackList, rfl, Or.inr ?_⟩
          rcases further with rfl | ⟨forward, other, member, ends⟩
          · exact ⟨by omega, piece, by simp, rfl⟩
          · exact ⟨by omega, other, List.mem_cons_of_mem piece member, ends⟩

end TcpRxBuffer

end FISim.Tcp
