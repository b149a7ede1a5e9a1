import FISim.Lib.Pieces
import FISim.Tcp.RxBuffer
import Mathlib.Algebra.BigOperators.Group.List.Basic
import Mathlib.Algebra.Order.BigOperators.Group.List

/-!
What the loops of `TcpRxBuffer` do, for segments that are pieces of one stream: their sequence
numbers stand for places in the stream.
-/

namespace FISim.Tcp

open Pieces SequenceNumber32

abbrev Piece := Span UInt8

/-- Pieces one behind the other, from a place on. -/
def Chained : ℕ → List Piece → Prop
  | _, [] => True
  | low, piece :: rest => low ≤ piece.2 ∧ 0 < piece.1.length ∧ Chained (finish piece) rest

def Stored (pieces : List Piece) (place : ℕ) : Prop := ∃ piece ∈ pieces, Contains piece place

def total (pieces : List Piece) : ℕ := (pieces.map fun piece => piece.1.length).sum

@[simp] theorem total_nil : total [] = 0 := rfl

@[simp] theorem total_cons (piece : Piece) (rest : List Piece) :
    total (piece :: rest) = piece.1.length + total rest := by
  simp [total]

@[simp] theorem stored_nil (place : ℕ) : ¬ Stored [] place := by
  rintro ⟨piece, member, -⟩
  simp at member

@[simp] theorem stored_cons (piece : Piece) (rest : List Piece) (place : ℕ) :
    Stored (piece :: rest) place ↔ Contains piece place ∨ Stored rest place := by
  simp [Stored]

theorem Chained.mono {low lower : ℕ} {pieces : List Piece} (chained : Chained low pieces)
    (below : lower ≤ low) : Chained lower pieces := by
  cases pieces with
  | nil => trivial
  | cons piece rest => exact ⟨Nat.le_trans below chained.1, chained.2⟩

theorem Chained.mem {low : ℕ} {pieces : List Piece} (chained : Chained low pieces) {piece : Piece}
    (member : piece ∈ pieces) : low ≤ piece.2 ∧ 0 < piece.1.length := by
  induction pieces generalizing low with
  | nil => simp at member
  | cons first rest ih =>
      obtain ⟨above, some_bytes, later⟩ := chained
      rcases List.mem_cons.mp member with rfl | behind
      · exact ⟨above, some_bytes⟩
      · have inside := ih later behind
        rw [finish] at inside
        omega

theorem Chained.stored_ge {low place : ℕ} {pieces : List Piece} (chained : Chained low pieces)
    (stored : Stored pieces place) : low ≤ place := by
  obtain ⟨piece, member, contains⟩ := stored
  exact Nat.le_trans (chained.mem member).1 contains.1

def Below (high : ℕ) (pieces : List Piece) : Prop := ∀ piece ∈ pieces, finish piece < high

theorem Below.tail {high : ℕ} {piece : Piece} {rest : List Piece}
    (below : Below high (piece :: rest)) : Below high rest :=
  fun other member => below other (List.mem_cons_of_mem piece member)

theorem Below.raise {high higher : ℕ} {pieces : List Piece} (below : Below high pieces)
    (order : high ≤ higher) : Below higher pieces :=
  fun piece member => Nat.lt_of_lt_of_le (below piece member) order

theorem Chained.total_le_of_ends {low high : ℕ} {pieces : List Piece} (chained : Chained low pieces)
    (ends : ∀ piece ∈ pieces, finish piece ≤ high) (order : low ≤ high) :
    total pieces ≤ high - low := by
  induction pieces generalizing low with
  | nil => exact Nat.zero_le _
  | cons piece rest ih =>
      obtain ⟨above, -, later⟩ := chained
      have inside := ends piece (by simp)
      have behind := ih later (fun other member => ends other (List.mem_cons_of_mem piece member))
        inside
      rw [total_cons]
      rw [finish] at inside behind
      omega

theorem Chained.total_le {low high : ℕ} {pieces : List Piece} (chained : Chained low pieces)
    (below : Below high pieces) (order : low ≤ high) : total pieces ≤ high - low :=
  chained.total_le_of_ends (fun piece member => (below piece member).le) order

section Numbers

variable (start : SequenceNumber32)

def numbered (pieces : List Piece) : RxData :=
  pieces.map fun piece => (start.ofPlace piece.2, piece.1)

@[simp] theorem numbered_nil : numbered start [] = [] := rfl

@[simp] theorem numbered_cons (piece : Piece) (rest : List Piece) :
    numbered start (piece :: rest) = (start.ofPlace piece.2, piece.1) :: numbered start rest := rfl

variable {start}

theorem lastByteSeq_eq {piece : Piece} (short : piece.1.length < 2 ^ 32) :
    (start.ofPlace piece.2).plus (getSize piece.1) = start.ofPlace (finish piece) := by
  rw [ofPlace_plus, getSize_toNat short, finish]

namespace TcpRxBuffer

variable (start) in
theorem removeOverlaps_behind {low : ℕ} {pieces : List Piece} (chained : Chained low pieces)
    (tail : ℕ) (less : tail < low) (below : Below (tail + 2 ^ 31) pieces) (size : UInt32)
    (headSeq : SequenceNumber32) :
    removeOverlaps (numbered start pieces) size headSeq (start.ofPlace tail) =
      { data := numbered start pieces, size, headSeq, tailSeq := start.ofPlace tail } := by
  cases pieces with
  | nil => rfl
  | cons piece rest =>
      have above := chained.1
      have inside := below piece (by simp)
      rw [finish] at inside
      have stops : ¬ (start.ofPlace piece.2).lessEqual (start.ofPlace tail) = true := by
        rw [ofPlace_lessEqual start (by omega) (by omega)]
        omega
      rw [numbered_cons, removeOverlaps, if_neg stops]

theorem removeOverlaps_empty {low : ℕ} {pieces : List Piece} (chained : Chained low pieces)
    (below : Below (low + 2 ^ 31) pieces) (size : UInt32) (seq : SequenceNumber32) :
    ∃ headSeq tailSeq, removeOverlaps (numbered start pieces) size seq seq =
      { data := numbered start pieces, size, headSeq, tailSeq } ∧
        headSeq.greaterEqual tailSeq = true := by
  induction pieces generalizing low with
  | nil =>
      refine ⟨seq, seq, rfl, ?_⟩
      simp [greaterEqual]
  | cons piece rest ih =>
      obtain ⟨above, some_bytes, later⟩ := chained
      have inside := below piece (by simp)
      have number : (start.ofPlace piece.2).plus (getSize piece.1) =
          start.ofPlace (finish piece) := by
        apply lastByteSeq_eq
        rw [finish] at inside
        omega
      have further : low ≤ finish piece := Nat.le_trans above (Nat.le_add_right _ _)
      have laterBelow := below.tail.raise (Nat.add_le_add_right further (2 ^ 31))
      rw [numbered_cons, removeOverlaps]
      by_cases goes : (start.ofPlace piece.2).lessEqual seq = true
      · rw [if_pos goes]
        simp only [number]
        by_cases overlaps : (start.ofPlace (finish piece)).greater seq = true
        · have outside : (start.ofPlace piece.2).greater seq = false := by
            simpa [lessEqual] using goes
          have touches : (start.ofPlace (finish piece)).greaterEqual seq = true := by
            simp [greaterEqual, overlaps]
          have ends := removeOverlaps_behind start later piece.2 (Nat.lt_add_of_pos_right some_bytes)
            (below.tail.raise (Nat.add_le_add_right above (2 ^ 31))) size
            (start.ofPlace (finish piece))
          refine ⟨start.ofPlace (finish piece), start.ofPlace piece.2, ?_, ?_⟩
          · rw [if_pos overlaps, outside, Bool.false_and, if_neg Bool.false_ne_true, if_pos goes,
              if_pos touches, ends]
          · rw [finish] at inside ⊢
            rw [ofPlace_greaterEqual start (by omega) (by omega)]
            omega
        · obtain ⟨headSeq, tailSeq, looped, order⟩ := ih later laterBelow
          refine ⟨headSeq, tailSeq, ?_, order⟩
          rw [if_neg overlaps, looped]
      · rw [if_neg goes]
        refine ⟨seq, seq, rfl, ?_⟩
        simp [greaterEqual]

/-- What is left of a segment, from `head` to `tail`, and of the pieces. -/
structure Trimmed (pieces : List Piece) (size : UInt32) (head tail : ℕ) (kept : List Piece)
    (left : UInt32) (first stop : ℕ) : Prop where
  head_le : head ≤ first
  some_left : first < stop
  le_tail : stop ≤ tail
  sublist : kept.Sublist pieces
  apart : ∀ piece ∈ kept, finish piece ≤ first ∨ stop ≤ piece.2
  covers : ∀ place, head ≤ place → place < tail →
    first ≤ place ∧ place < stop ∨ Stored kept place
  replaces : ∀ place, Stored pieces place → Stored kept place ∨ first ≤ place ∧ place < stop
  size : left.toNat + total pieces = size.toNat + total kept

theorem Trimmed.embed {piece : Piece} {rest kept : List Piece} {size smaller left : UInt32}
    {head tail first stop : ℕ} (trimmed : Trimmed rest smaller head tail kept left first stop)
    (lower : head ≤ piece.2) (upper : finish piece ≤ tail)
    (given : smaller.toNat + piece.1.length = size.toNat) :
    Trimmed (piece :: rest) size head tail kept left first stop := by
  constructor
  · exact trimmed.head_le
  · exact trimmed.some_left
  · exact trimmed.le_tail
  · exact trimmed.sublist.cons piece
  · exact trimmed.apart
  · exact trimmed.covers
  · intro place stored
    rcases (stored_cons piece rest place).mp stored with here | behind
    · obtain ⟨after, before⟩ := here
      exact (trimmed.covers place (by omega) (by omega)).symm
    · exact trimmed.replaces place behind
  · have counted := trimmed.size
    rw [total_cons]
    omega

theorem Trimmed.keep {piece : Piece} {rest kept : List Piece} {size left : UInt32}
    {head middle tail first stop : ℕ}
    (trimmed : Trimmed rest size middle tail kept left first stop) (further : head ≤ middle)
    (ends : finish piece ≤ middle)
    (has : ∀ place, head ≤ place → place < middle → piece.2 ≤ place ∧ place < finish piece) :
    Trimmed (piece :: rest) size head tail (piece :: kept) left first stop := by
  have later := trimmed.head_le
  constructor
  · exact further.trans later
  · exact trimmed.some_left
  · exact trimmed.le_tail
  · exact trimmed.sublist.cons_cons piece
  · intro other member
    rcases List.mem_cons.mp member with rfl | kept
    · exact Or.inl (ends.trans later)
    · exact trimmed.apart other kept
  · intro place lower upper
    rw [stored_cons]
    by_cases early : place < middle
    · exact Or.inr (Or.inl (has place lower early))
    · rcases trimmed.covers place (Nat.le_of_not_lt early) upper with here | kept
      · exact Or.inl here
      · exact Or.inr (Or.inr kept)
  · intro place stored
    rw [stored_cons] at stored ⊢
    rcases stored with here | behind
    · exact Or.inl (Or.inl here)
    · rcases trimmed.replaces place behind with kept | here
      · exact Or.inl (Or.inr kept)
      · exact Or.inr here
  · have counted := trimmed.size
    rw [total_cons, total_cons]
    omega

theorem Trimmed.stop {piece : Piece} {rest : List Piece} {size : UInt32} {head tail : ℕ}
    (later : Chained (finish piece) rest) (ahead : head < piece.2) (goes : piece.2 ≤ tail)
    (reaches : tail ≤ finish piece) :
    Trimmed (piece :: rest) size head tail (piece :: rest) size head piece.2 := by
  constructor
  · exact Nat.le_refl _
  · exact ahead
  · exact goes
  · exact List.Sublist.refl _
  · intro other member
    rcases List.mem_cons.mp member with rfl | behind
    · exact Or.inr (Nat.le_refl _)
    · have := (later.mem behind).1
      exact Or.inr (by omega)
  · intro place lower upper
    rw [stored_cons]
    by_cases early : place < piece.2
    · exact Or.inl ⟨lower, early⟩
    · exact Or.inr (Or.inl ⟨by omega, by omega⟩)
  · exact fun place stored => Or.inl stored
  · rfl

/-- The pieces that are given up lie inside the segment, behind a byte that was missing. -/
structure Swallowed (pieces : List Piece) (head tail : ℕ) (kept : List Piece) (first : ℕ) :
    Prop where
  begins : first = head ∨ Stored pieces head
  inside : ∀ piece ∈ pieces, piece ∈ kept ∨ first < piece.2 ∧ finish piece < tail

theorem Swallowed.nothing (pieces : List Piece) (head tail : ℕ) :
    Swallowed pieces head tail pieces head :=
  ⟨Or.inl rfl, fun _ member => Or.inl member⟩

theorem Swallowed.embed {piece : Piece} {rest kept : List Piece} {head tail first : ℕ}
    (swallowed : Swallowed rest head tail kept first) (later : Chained (finish piece) rest)
    (ahead : head < piece.2) (inside : finish piece < tail) :
    Swallowed (piece :: rest) head tail kept first := by
  have starts : first = head := by
    refine swallowed.begins.resolve_right fun stored => ?_
    have := later.stored_ge stored
    rw [finish] at this
    omega
  constructor
  · exact Or.inl starts
  · intro other member
    rcases List.mem_cons.mp member with rfl | behind
    · exact Or.inr ⟨starts ▸ ahead, inside⟩
    · exact swallowed.inside other behind

theorem Swallowed.keep {piece : Piece} {rest kept : List Piece} {head middle tail first : ℕ}
    (swallowed : Swallowed rest middle tail kept first) (further : head ≤ middle)
    (has : ∀ place, head ≤ place → place < middle → piece.2 ≤ place ∧ place < finish piece) :
    Swallowed (piece :: rest) head tail (piece :: kept) first := by
  constructor
  · rw [stored_cons]
    rcases Nat.eq_or_lt_of_le further with rfl | moved
    · exact swallowed.begins.imp_right Or.inr
    · exact Or.inr (Or.inl (has head (Nat.le_refl head) moved))
  · intro other member
    rcases List.mem_cons.mp member with rfl | behind
    · exact Or.inl List.mem_cons_self
    · exact (swallowed.inside other behind).imp_left (List.mem_cons_of_mem piece)

/-- What the loop over the overlaps leaves of a segment from `head` to `tail`: a part that fits
between the pieces, or nothing, as all of it is stored. -/
inductive Remains (start : SequenceNumber32) (pieces : List Piece) (size : UInt32) (head tail : ℕ)
    (overlaps : Overlaps) : Prop
  | part (kept : List Piece) (left : UInt32) (first stop : ℕ)
      (leaves : overlaps =
        { data := numbered start kept, size := left,
          headSeq := start.ofPlace first, tailSeq := start.ofPlace stop })
      (trimmed : Trimmed pieces size head tail kept left first stop)
      (swallowed : Swallowed pieces head tail kept first)
  | nothing (first stop : ℕ)
      (leaves : overlaps =
        { data := numbered start pieces, size := size,
          headSeq := start.ofPlace first, tailSeq := start.ofPlace stop })
      (crossed : stop ≤ first) (near : first < stop + 2 ^ 31)
      (stored : ∀ place, head ≤ place → place < tail → Stored pieces place)
      (front : ∃ piece ∈ pieces, piece.2 ≤ head)

theorem Remains.ahead {pieces : List Piece} {head tail : ℕ} (size : UInt32) (order : head < tail)
    (behind : ∀ piece ∈ pieces, tail ≤ piece.2) :
    Remains start pieces size head tail
      { data := numbered start pieces, size := size,
        headSeq := start.ofPlace head, tailSeq := start.ofPlace tail } := by
  refine .part pieces size head tail rfl ⟨Nat.le_refl _, order, Nat.le_refl _,
    List.Sublist.refl _, ?_, ?_, ?_, rfl⟩ (Swallowed.nothing _ _ _)
  · exact fun piece member => Or.inr (behind piece member)
  · exact fun place lower upper => Or.inl ⟨lower, upper⟩
  · exact fun place stored => Or.inl stored

theorem Remains.embed {piece : Piece} {rest : List Piece} {size smaller : UInt32}
    {head tail : ℕ} {overlaps : Overlaps}
    (remains : Remains start rest smaller head tail overlaps) (later : Chained (finish piece) rest)
    (ahead : head < piece.2) (inside : finish piece < tail)
    (given : smaller.toNat + piece.1.length = size.toNat) :
    Remains start (piece :: rest) size head tail overlaps := by
  have bytes : finish piece = piece.2 + piece.1.length := rfl
  cases remains with
  | part kept left first stop leaves trimmed swallowed =>
      exact .part kept left first stop leaves (trimmed.embed (by omega) (by omega) given)
        (swallowed.embed later ahead inside)
  | nothing first stop leaves crossed near stored front =>
      obtain ⟨other, member, low⟩ := front
      have := (later.mem member).1
      omega

theorem Remains.keep {piece : Piece} {rest : List Piece} {size : UInt32} {head middle tail : ℕ}
    {overlaps : Overlaps} (remains : Remains start rest size middle tail overlaps)
    (further : head ≤ middle) (ends : finish piece ≤ middle)
    (takes : head < middle → piece.2 ≤ head ∧ middle = finish piece) :
    Remains start (piece :: rest) size head tail
      { overlaps with data := (start.ofPlace piece.2, piece.1) :: overlaps.data } := by
  have has : ∀ place, head ≤ place → place < middle → piece.2 ≤ place ∧ place < finish piece := by
    intro place lower upper
    obtain ⟨front, rfl⟩ := takes (by omega)
    exact ⟨by omega, upper⟩
  cases remains with
  | part kept left first stop leaves trimmed swallowed =>
      refine .part (piece :: kept) left first stop ?_ (trimmed.keep further ends has)
        (swallowed.keep further has)
      rw [leaves]
      rfl
  | nothing first stop leaves crossed near stored front =>
      refine .nothing first stop ?_ crossed near ?_ ?_
      · rw [leaves]
        rfl
      · intro place lower upper
        rw [stored_cons]
        by_cases early : place < middle
        · exact Or.inl (has place lower early)
        · exact Or.inr (stored place (by omega) upper)
      · rcases Nat.eq_or_lt_of_le further with rfl | moved
        · obtain ⟨other, member, low⟩ := front
          exact ⟨other, List.mem_cons_of_mem piece member, low⟩
        · exact ⟨piece, List.mem_cons_self, (takes moved).1⟩

theorem Remains.inside {piece : Piece} {head tail : ℕ} (rest : List Piece) (size : UInt32)
    (front : piece.2 ≤ head) (back : tail ≤ finish piece)
    (near : finish piece < piece.2 + 2 ^ 31) :
    Remains start (piece :: rest) size head tail
      { data := numbered start (piece :: rest), size := size,
        headSeq := start.ofPlace (finish piece), tailSeq := start.ofPlace piece.2 } := by
  refine .nothing (finish piece) piece.2 rfl (Nat.le_add_right _ _) near ?_
    ⟨piece, List.mem_cons_self, front⟩
  intro place lower upper
  exact (stored_cons piece rest place).mpr (Or.inl ⟨by omega, by omega⟩)

theorem Remains.upTo {piece : Piece} {rest : List Piece} {head tail : ℕ} (size : UInt32)
    (later : Chained (finish piece) rest) (ahead : head < piece.2) (goes : piece.2 ≤ tail)
    (reaches : tail ≤ finish piece) :
    Remains start (piece :: rest) size head tail
      { data := numbered start (piece :: rest), size := size, headSeq := start.ofPlace head,
        tailSeq := start.ofPlace piece.2 } :=
  .part (piece :: rest) size head piece.2 rfl (Trimmed.stop later ahead goes reaches)
    (Swallowed.nothing _ _ _)

theorem size_without {piece : Piece} {size : UInt32} (short : piece.1.length < 2 ^ 32)
    (holds : piece.1.length ≤ size.toNat) :
    (size - getSize piece.1).toNat = size.toNat - piece.1.length := by
  have length := getSize_toNat short
  rw [UInt32.toNat_sub_of_le]
  · rw [length]
  · rw [UInt32.le_iff_toNat_le, length]
    exact holds

variable (start) in
theorem removeOverlaps_spec {low tail : ℕ} {pieces : List Piece} (head : ℕ) (size : UInt32)
    (chained : Chained low pieces) (below : Below (low + 2 ^ 31) pieces) (lowHead : low ≤ head)
    (order : head < tail) (tailHigh : tail < low + 2 ^ 31) (holds : total pieces ≤ size.toNat) :
    Remains start pieces size head tail
      (removeOverlaps (numbered start pieces) size (start.ofPlace head) (start.ofPlace tail)) := by
  induction pieces generalizing head size with
  | nil => exact Remains.ahead size order fun piece member => absurd member List.not_mem_nil
  | cons piece rest ih =>
      obtain ⟨above, some_bytes, later⟩ := chained
      have inside := below piece (by simp)
      have bytes : finish piece = piece.2 + piece.1.length := rfl
      have number : (start.ofPlace piece.2).plus (getSize piece.1) =
          start.ofPlace (finish piece) := lastByteSeq_eq (by omega)
      have laterLow : Chained low rest := later.mono (by omega)
      rw [total_cons] at holds
      rw [numbered_cons, removeOverlaps]
      simp only [number, Bool.and_eq_true,
        ofPlace_lessEqual start (show piece.2 < tail + 2 ^ 31 by omega) (by omega),
        ofPlace_lessEqual start (show piece.2 < head + 2 ^ 31 by omega) (by omega),
        ofPlace_greater start (show finish piece < head + 2 ^ 31 by omega) (by omega),
        ofPlace_greater start (show piece.2 < head + 2 ^ 31 by omega) (by omega),
        ofPlace_less start (show finish piece < tail + 2 ^ 31 by omega) (by omega),
        ofPlace_greaterEqual start (show finish piece < tail + 2 ^ 31 by omega) (by omega)]
      by_cases goes : piece.2 ≤ tail
      · rw [if_pos goes]
        by_cases overlaps : head < finish piece
        · rw [if_pos overlaps]
          by_cases embedded : head < piece.2 ∧ finish piece < tail
          · have smaller := size_without (show piece.1.length < 2 ^ 32 by omega)
              (show piece.1.length ≤ size.toNat by omega)
            rw [if_pos embedded]
            exact (ih head _ laterLow below.tail lowHead order (by omega)).embed later
              embedded.1 embedded.2 (by omega)
          · rw [if_neg embedded]
            by_cases back : tail ≤ finish piece
            · rw [if_pos back]
              have ends := fun seq => removeOverlaps_behind start later piece.2 (by omega)
                (below.tail.raise (by omega)) size seq
              simp only [ends]
              by_cases front : piece.2 ≤ head
              · rw [if_pos front]
                exact Remains.inside rest size front back (by omega)
              · rw [if_neg front]
                exact Remains.upTo size later (by omega) goes back
            · have front : piece.2 ≤ head := by omega
              rw [if_neg back, if_pos front]
              exact (ih (finish piece) size laterLow below.tail (by omega) (by omega)
                (by omega)).keep (by omega) (Nat.le_refl _) fun _ => ⟨front, rfl⟩
        · rw [if_neg overlaps]
          exact (ih head size laterLow below.tail lowHead order (by omega)).keep (Nat.le_refl _)
            (by omega) fun moved => absurd moved (Nat.lt_irrefl head)
      · rw [if_neg goes]
        refine Remains.ahead size order fun other member => ?_
        rcases List.mem_cons.mp member with rfl | behind
        · omega
        · have := (later.mem behind).1
          omega

end TcpRxBuffer

end Numbers

theorem Chained.sublist {low : ℕ} {kept pieces : List Piece} (sublist : kept.Sublist pieces)
    (chained : Chained low pieces) : Chained low kept := by
  induction sublist generalizing low with
  | slnil => trivial
  | @cons kept pieces piece sublist ih =>
      obtain ⟨above, -, later⟩ := chained
      exact (ih later).mono (Nat.le_trans above (Nat.le_add_right _ _))
  | @cons_cons kept pieces piece sublist ih =>
      obtain ⟨above, some_bytes, later⟩ := chained
      exact ⟨above, some_bytes, ih later⟩

def insertPiece (piece : Piece) : List Piece → List Piece
  | [] => [piece]
  | other :: rest =>
      if piece.2 < other.2 then piece :: other :: rest else other :: insertPiece piece rest

theorem insertPiece_perm (piece : Piece) (pieces : List Piece) :
    (insertPiece piece pieces).Perm (piece :: pieces) := by
  induction pieces with
  | nil => rfl
  | cons other rest ih =>
      rw [insertPiece]
      split
      · rfl
      · exact (ih.cons other).trans (List.Perm.swap piece other rest)

theorem stored_insertPiece {piece : Piece} {pieces : List Piece} {place : ℕ} :
    Stored (insertPiece piece pieces) place ↔ Contains piece place ∨ Stored pieces place := by
  rw [← stored_cons]
  constructor
  · rintro ⟨other, member, contains⟩
    exact ⟨other, (insertPiece_perm piece pieces).mem_iff.mp member, contains⟩
  · rintro ⟨other, member, contains⟩
    exact ⟨other, (insertPiece_perm piece pieces).mem_iff.mpr member, contains⟩

theorem total_insertPiece (piece : Piece) (pieces : List Piece) :
    total (insertPiece piece pieces) = piece.1.length + total pieces := by
  rw [← total_cons]
  exact ((insertPiece_perm piece pieces).map _).sum_eq

theorem chained_insertPiece {low : ℕ} {piece : Piece} {pieces : List Piece}
    (chained : Chained low pieces) (above : low ≤ piece.2) (some_bytes : 0 < piece.1.length)
    (apart : ∀ other ∈ pieces, finish other ≤ piece.2 ∨ finish piece ≤ other.2) :
    Chained low (insertPiece piece pieces) := by
  induction pieces generalizing low with
  | nil => exact ⟨above, some_bytes, trivial⟩
  | cons other rest ih =>
      obtain ⟨otherAbove, otherBytes, later⟩ := chained
      have place := apart other (by simp)
      have bytes : finish piece = piece.2 + piece.1.length := rfl
      have otherFinish : finish other = other.2 + other.1.length := rfl
      rw [insertPiece]
      by_cases before : piece.2 < other.2
      · rw [if_pos before]
        exact ⟨above, some_bytes, by omega, otherBytes, later⟩
      · rw [if_neg before]
        refine ⟨otherAbove, otherBytes, ?_⟩
        exact ih later (by omega) fun another member =>
          apart another (List.mem_cons_of_mem other member)

section Storing

variable {start : SequenceNumber32}

theorem store_numbered {low : ℕ} (piece : Piece) {pieces : List Piece} (chained : Chained low pieces)
    (below : Below (low + 2 ^ 31) pieces) (above : low ≤ piece.2) (inside : piece.2 < low + 2 ^ 31)
    (apart : ∀ other ∈ pieces, other.2 ≠ piece.2) :
    RxData.store (start.ofPlace piece.2) piece.1 (numbered start pieces) =
      numbered start (insertPiece piece pieces) := by
  induction pieces generalizing low with
  | nil => rfl
  | cons other rest ih =>
      obtain ⟨otherAbove, otherBytes, later⟩ := chained
      have otherBelow := below other (by simp)
      have otherFinish : finish other = other.2 + other.1.length := rfl
      have different := apart other (by simp)
      rw [numbered_cons, RxData.store, insertPiece]
      simp only [ofPlace_less start (show piece.2 < other.2 + 2 ^ 31 by omega) (by omega),
        ofPlace_less start (show other.2 < piece.2 + 2 ^ 31 by omega) (by omega)]
      by_cases before : piece.2 < other.2
      · rw [if_pos before, if_pos before]
        rfl
      · have behind : other.2 < piece.2 := by omega
        have stores := ih (later.mono (show low ≤ finish other by omega)) below.tail above inside
          fun another member => apart another (List.mem_cons_of_mem other member)
        rw [if_neg before, if_neg before, if_pos behind, stores]
        rfl

theorem not_any_numbered {low place : ℕ} {pieces : List Piece} (chained : Chained low pieces)
    (below : Below (low + 2 ^ 31) pieces) (above : low ≤ place) (inside : place < low + 2 ^ 31)
    (apart : ∀ other ∈ pieces, other.2 ≠ place) :
    (numbered start pieces).any (fun i => i.1 = start.ofPlace place) = false := by
  rw [List.any_eq_false]
  intro i member same
  obtain ⟨other, isPiece, rfl⟩ := List.mem_map.mp member
  have otherAbove := (chained.mem isPiece).1
  have otherBelow := below other isPiece
  rw [finish] at otherBelow
  rw [decide_eq_true_eq, ofPlace_inj start (by omega) (by omega)] at same
  exact apart other isPiece same

/-- What is left of a piece of which the first bytes are taken. -/
def behind (piece : Piece) (count : ℕ) : Piece := (piece.1.drop count, piece.2 + count)

theorem finish_behind {piece : Piece} {count : ℕ} (part : count ≤ piece.1.length) :
    finish (behind piece count) = finish piece := by
  rw [finish, finish, behind, List.length_drop]
  omega

theorem chained_behind {low count : ℕ} {piece : Piece} {rest : List Piece}
    (chained : Chained low (piece :: rest)) (part : count < piece.1.length) :
    Chained (piece.2 + count) (behind piece count :: rest) := by
  refine ⟨Nat.le_refl _, ?_, ?_⟩
  · rw [behind, List.length_drop]
    omega
  · rw [finish_behind part.le]
    exact chained.2.2

theorem store_behind {low : ℕ} {piece : Piece} {rest : List Piece}
    (chained : Chained low (piece :: rest)) (below : Below (low + 2 ^ 31) (piece :: rest))
    (count : UInt32) (some_bytes : 0 < count.toNat) (part : count.toNat < piece.1.length) :
    ((RxData.store ((start.ofPlace piece.2).plus count) (piece.1.drop count.toNat)
      (numbered start (piece :: rest))).filter fun held => held.1 ≠ start.ofPlace piece.2) =
        numbered start (behind piece count.toNat :: rest) := by
  obtain ⟨above, positive, later⟩ := chained
  have inside := below piece (by simp)
  have bytes : finish piece = piece.2 + piece.1.length := rfl
  have after : ∀ other ∈ rest, finish piece ≤ other.2 ∧ other.2 < low + 2 ^ 31 := by
    intro other member
    have := later.mem member
    have ends := below other (List.mem_cons_of_mem piece member)
    rw [finish] at ends
    omega
  have stored : RxData.store (start.ofPlace (piece.2 + count.toNat)) (piece.1.drop count.toNat)
      (numbered start (piece :: rest)) =
        numbered start (insertPiece (behind piece count.toNat) (piece :: rest)) := by
    refine store_numbered (behind piece count.toNat) ⟨above, positive, later⟩ below ?_ ?_ ?_
    · change low ≤ piece.2 + count.toNat
      omega
    · change piece.2 + count.toNat < low + 2 ^ 31
      omega
    · intro other member
      change other.2 ≠ piece.2 + count.toNat
      rcases List.mem_cons.mp member with rfl | later
      · omega
      · have := after other later
        omega
  have placed : insertPiece (behind piece count.toNat) (piece :: rest) =
      piece :: behind piece count.toNat :: rest := by
    rw [insertPiece, if_neg (by change ¬ piece.2 + count.toNat < piece.2; omega)]
    cases rest with
    | nil => rfl
    | cons other others =>
        have := after other (by simp)
        rw [insertPiece, if_pos (by change piece.2 + count.toNat < other.2; omega)]
  have others : ∀ i ∈ numbered start (behind piece count.toNat :: rest),
      i.1 ≠ start.ofPlace piece.2 := by
    intro i member
    obtain ⟨other, isPiece, rfl⟩ := List.mem_map.mp member
    have place : piece.2 < other.2 ∧ other.2 < low + 2 ^ 31 := by
      rcases List.mem_cons.mp isPiece with rfl | later
      · change piece.2 < piece.2 + count.toNat ∧ piece.2 + count.toNat < low + 2 ^ 31
        omega
      · have := after other later
        omega
    rw [ne_eq, ofPlace_inj start (by omega) (by omega)]
    omega
  rw [ofPlace_plus, stored, placed, numbered_cons, List.filter_cons_of_neg, List.filter_eq_self]
  · intro i member
    rw [decide_eq_true_eq]
    exact others i member
  · simp

end Storing

section Sacks

variable (start : SequenceNumber32)

/-- A block of places that have a property. -/
structure Block (low : ℕ) (holds : ℕ → Prop) (block : ℕ × ℕ) : Prop where
  above : low ≤ block.1
  order : block.1 < block.2
  below : block.2 < low + 2 ^ 31
  inside : ∀ place, block.1 ≤ place → place < block.2 → holds place

def Apart (block other : ℕ × ℕ) : Prop := block.2 ≤ other.1 ∨ other.2 ≤ block.1

theorem Apart.symm {block other : ℕ × ℕ} (apart : Apart block other) : Apart other block :=
  Or.symm apart

/-- A block and one that it touches, put together. -/
def Joint (block other merged : ℕ × ℕ) : Prop :=
  block.1 = other.2 ∧ merged = (other.1, block.2) ∨ block.2 = other.1 ∧ merged = (block.1, other.2)

section Joints

variable {low : ℕ} {holds : ℕ → Prop} {block other merged third : ℕ × ℕ}

theorem Joint.isBlock (joint : Joint block other merged) (isBlock : Block low holds block)
    (isOther : Block low holds other) : Block low holds merged := by
  obtain ⟨above, order, below, inside⟩ := isBlock
  obtain ⟨otherAbove, otherOrder, otherBelow, otherInside⟩ := isOther
  rcases joint with ⟨touch, rfl⟩ | ⟨touch, rfl⟩
  · refine ⟨otherAbove, by omega, below, fun place lower upper => ?_⟩
    by_cases early : place < other.2
    · exact otherInside place lower early
    · exact inside place (by omega) upper
  · refine ⟨above, by omega, otherBelow, fun place lower upper => ?_⟩
    by_cases early : place < block.2
    · exact inside place lower early
    · exact otherInside place (by omega) upper

theorem Joint.contains (joint : Joint block other merged) (order : other.1 < other.2) :
    merged.1 ≤ block.1 ∧ block.2 ≤ merged.2 := by
  rcases joint with ⟨touch, rfl⟩ | ⟨touch, rfl⟩
  · exact ⟨by omega, Nat.le_refl _⟩
  · exact ⟨Nat.le_refl _, by omega⟩

theorem Joint.apart (joint : Joint block other merged) (order : third.1 < third.2)
    (first : Apart block third) (second : Apart other third) : Apart merged third := by
  rw [Apart] at first second ⊢
  rcases joint with ⟨touch, rfl⟩ | ⟨touch, rfl⟩
  · dsimp only
    omega
  · dsimp only
    omega

end Joints

def numberBlock (start : SequenceNumber32) (block : ℕ × ℕ) : SackBlock :=
  (start.ofPlace block.1, start.ofPlace block.2)

namespace TcpRxBuffer

theorem mergeOne_spec {low : ℕ} {holds : ℕ → Prop} {block : ℕ × ℕ} (isBlock : Block low holds block)
    {others : List (ℕ × ℕ)} (areBlocks : ∀ other ∈ others, Block low holds other) :
    mergeOne (numberBlock start block) (others.map (numberBlock start)) = some none ∨
      ∃ (merged other : ℕ × ℕ) (left : List (ℕ × ℕ)),
        mergeOne (numberBlock start block) (others.map (numberBlock start)) =
          some (some (numberBlock start merged, left.map (numberBlock start))) ∧
        Joint block other merged ∧ others.Perm (other :: left) := by
  induction others with
  | nil => exact Or.inl rfl
  | cons other rest ih =>
      obtain ⟨above, order, below, -⟩ := isBlock
      obtain ⟨otherAbove, otherOrder, otherBelow, -⟩ := areBlocks other (by simp)
      rw [List.map_cons, mergeOne]
      simp only [numberBlock, ofPlace_inj start (show block.1 < other.2 + 2 ^ 32 by omega) (by omega),
        ofPlace_inj start (show block.2 < other.1 + 2 ^ 32 by omega) (by omega),
        ofPlace_less start (show other.1 < block.2 + 2 ^ 31 by omega) (by omega),
        ofPlace_less start (show block.1 < other.2 + 2 ^ 31 by omega) (by omega)]
      by_cases left : block.1 = other.2
      · refine Or.inr ⟨(other.1, block.2), other, rest, ?_, Or.inl ⟨left, rfl⟩, List.Perm.refl _⟩
        rw [if_pos left, if_pos (by omega)]
      · rw [if_neg left]
        by_cases right : block.2 = other.1
        · refine Or.inr ⟨(block.1, other.2), other, rest, ?_, Or.inr ⟨right, rfl⟩, List.Perm.refl _⟩
          rw [if_pos right, if_pos (by omega)]
        · rw [if_neg right]
          rcases ih fun another member => areBlocks another (List.mem_cons_of_mem other member) with
            nothing | ⟨merged, touched, kept, merges, joint, same⟩
          · refine Or.inl ?_
            change (mergeOne (numberBlock start block) (rest.map (numberBlock start))).map _ = _
            rw [nothing]
            rfl
          · refine Or.inr ⟨merged, touched, other :: kept, ?_, joint, ?_⟩
            · change (mergeOne (numberBlock start block) (rest.map (numberBlock start))).map _ = _
              rw [merges]
              rfl
            · exact (same.cons other).trans (List.Perm.swap touched other kept)

theorem mergeBlocks_spec {low : ℕ} {holds : ℕ → Prop} (fuel : ℕ) {block : ℕ × ℕ}
    (isBlock : Block low holds block) {others : List (ℕ × ℕ)}
    (areBlocks : ∀ other ∈ others, Block low holds other) (enough : others.length < fuel) :
    ∃ (merged : ℕ × ℕ) (rest : List (ℕ × ℕ)),
      mergeBlocks (numberBlock start block) fuel (others.map (numberBlock start)) =
        some ((merged :: rest).map (numberBlock start)) ∧
      (∀ other ∈ merged :: rest, Block low holds other) ∧ merged.1 ≤ block.1 ∧ block.2 ≤ merged.2 ∧
      rest.length ≤ others.length ∧
      ((block :: others).Pairwise Apart → (merged :: rest).Pairwise Apart) := by
  induction fuel generalizing block others with
  | zero => omega
  | succ fuel ih =>
      rw [mergeBlocks]
      rcases mergeOne_spec start isBlock areBlocks with
        nothing | ⟨merged, other, left, merges, joint, same⟩
      · refine ⟨block, others, ?_, ?_, Nat.le_refl _, Nat.le_refl _, Nat.le_refl _, id⟩
        · rw [nothing]
          rfl
        · exact List.forall_mem_cons.mpr ⟨isBlock, areBlocks⟩
      · have isOther := areBlocks other (same.mem_iff.mpr (by simp))
        have areLeft : ∀ another ∈ left, Block low holds another :=
          fun another member => areBlocks another (same.mem_iff.mpr (List.mem_cons_of_mem other member))
        have length := same.length_eq
        rw [List.length_cons] at length
        obtain ⟨final, rest, looped, blocks, lower, upper, few, apart⟩ :=
          ih (joint.isBlock isBlock isOther) areLeft (by omega)
        obtain ⟨jointLower, jointUpper⟩ := joint.contains isOther.order
        refine ⟨final, rest, ?_, blocks, by omega, by omega, by omega, fun separate => apart ?_⟩
        · rw [merges]
          exact looped
        · rw [(same.cons block).pairwise_iff Apart.symm] at separate
          obtain ⟨fromBlock, fromOther, within⟩ : (∀ another ∈ other :: left, Apart block another) ∧
              (∀ another ∈ left, Apart other another) ∧ left.Pairwise Apart := by
            simpa only [List.pairwise_cons] using separate
          refine List.pairwise_cons.mpr ⟨fun another member => ?_, within⟩
          exact joint.apart (areLeft another member).order
            (fromBlock another (List.mem_cons_of_mem other member)) (fromOther another member)

theorem clearSackList_spec {low place : ℕ} {holds : ℕ → Prop} {blocks : List (ℕ × ℕ)}
    (areBlocks : ∀ block ∈ blocks, Block low holds block) (above : low ≤ place)
    (inside : place < low + 2 ^ 31) :
    clearSackList (start.ofPlace place) (blocks.map (numberBlock start)) =
      some ((blocks.filter fun block => place < block.2).map (numberBlock start)) := by
  induction blocks with
  | nil => rfl
  | cons block rest ih =>
      obtain ⟨blockAbove, order, below, -⟩ := areBlocks block (by simp)
      have clears := ih fun other member => areBlocks other (List.mem_cons_of_mem block member)
      rw [List.map_cons, clearSackList]
      simp only [numberBlock, ofPlace_less start (show block.1 < block.2 + 2 ^ 31 by omega) (by omega),
        ofPlace_lessEqual start (show block.2 < place + 2 ^ 31 by omega) (by omega)]
      rw [if_pos order, ← numberBlock, clears]
      by_cases kept : place < block.2
      · simp [kept]
      · simp [kept]

/-- How far the loop of `Add` moves the next place, and the blocks that it leaves: what is passed is
stored, and what is left of the list ends behind it. -/
structure Advanced (low next : ℕ) (pieces : List Piece) (blocks : List (ℕ × ℕ)) (reached : ℕ)
    (left : List (ℕ × ℕ)) : Prop where
  further : next ≤ reached
  high : reached < low + 2 ^ 31
  covers : ∀ place, next ≤ place → place < reached → Stored pieces place
  stops : ¬ Stored pieces reached
  fewer : left.Sublist blocks
  stays : reached = next → left = blocks
  beyond : ∀ block ∈ left, next < reached → reached < block.2

theorem Advanced.idle {low next : ℕ} {pieces : List Piece} (blocks : List (ℕ × ℕ))
    (near : next < low + 2 ^ 31) (isOpen : ¬ Stored pieces next) :
    Advanced low next pieces blocks next blocks where
  further := Nat.le_refl next
  high := near
  covers _ lower upper := absurd upper (Nat.not_lt.mpr lower)
  stops := isOpen
  fewer := List.Sublist.refl blocks
  stays _ := rfl
  beyond _ _ moved := absurd moved (Nat.lt_irrefl next)

theorem Advanced.behind {low next reached : ℕ} {piece : Piece} {rest : List Piece}
    {blocks left : List (ℕ × ℕ)} (advanced : Advanced low next rest blocks reached left)
    (ends : finish piece ≤ next) : Advanced low next (piece :: rest) blocks reached left where
  further := advanced.further
  high := advanced.high
  covers place lower upper :=
    (stored_cons piece rest place).mpr (Or.inr (advanced.covers place lower upper))
  stops := by
    have further := advanced.further
    rw [stored_cons]
    rintro (⟨-, contains⟩ | stored)
    · omega
    · exact advanced.stops stored
  fewer := advanced.fewer
  stays := advanced.stays
  beyond := advanced.beyond

/-- A piece that begins at the next place moves it to its end, which clears the blocks before it. -/
theorem Advanced.through {low reached : ℕ} {piece : Piece} {rest : List Piece}
    {blocks left : List (ℕ × ℕ)} (some_bytes : piece.2 < finish piece)
    (advanced : Advanced low (finish piece) rest
      (blocks.filter fun block => finish piece < block.2) reached left) :
    Advanced low piece.2 (piece :: rest) blocks reached left := by
  have further := advanced.further
  constructor
  · omega
  · exact advanced.high
  · intro place lower upper
    rw [stored_cons]
    by_cases early : place < finish piece
    · exact Or.inl ⟨lower, early⟩
    · exact Or.inr (advanced.covers place (by omega) upper)
  · rw [stored_cons]
    rintro (⟨-, contains⟩ | stored)
    · omega
    · exact advanced.stops stored
  · exact advanced.fewer.trans List.filter_sublist
  · omega
  · intro block member _
    obtain ⟨-, open_end⟩ := List.mem_filter.mp (advanced.fewer.subset member)
    by_cases moved : finish piece < reached
    · exact advanced.beyond block member moved
    · have last : reached = finish piece := by omega
      rw [last]
      exact of_decide_eq_true open_end

theorem avail_unmoved (avail : UInt32) (place : ℕ) : avail + UInt32.ofNat (place - place) = avail := by
  rw [Nat.sub_self]
  exact UInt32.add_zero avail

theorem advance_spec {low base next : ℕ} {pieces : List Piece} (buffer : TcpRxBuffer)
    {holds : ℕ → Prop} {blocks : List (ℕ × ℕ)} (chained : Chained base pieces)
    (below : Below (low + 2 ^ 31) pieces) (above : low ≤ base) (order : low ≤ next)
    (near : next < low + 2 ^ 31)
    (closed : ∀ piece ∈ pieces, piece.2 < next → finish piece ≤ next)
    (expects : buffer.nextRxSeq = start.ofPlace next)
    (sacks : buffer.sackList = blocks.map (numberBlock start))
    (areBlocks : ∀ block ∈ blocks, Block low holds block) :
    ∃ (reached : ℕ) (left : List (ℕ × ℕ)),
      advance (numbered start pieces) buffer = some { buffer with
        nextRxSeq := start.ofPlace reached
        availBytes := buffer.availBytes + UInt32.ofNat (reached - next)
        sackList := left.map (numberBlock start) } ∧
      Advanced low next pieces blocks reached left := by
  induction pieces generalizing base next buffer blocks with
  | nil =>
      refine ⟨next, blocks, ?_, Advanced.idle blocks near (stored_nil next)⟩
      rw [← expects, ← sacks, avail_unmoved]
      rfl
  | cons piece rest ih =>
      obtain ⟨pieceAbove, some_bytes, later⟩ := chained
      have inside := below piece (by simp)
      have bytes : finish piece = piece.2 + piece.1.length := rfl
      have laterClosed : ∀ other ∈ rest, other.2 < next → finish other ≤ next :=
        fun other member => closed other (List.mem_cons_of_mem piece member)
      rw [numbered_cons, advance]
      simp only [expects, ofPlace_less start (show piece.2 < next + 2 ^ 31 by omega) (by omega),
        ofPlace_greater start (show piece.2 < next + 2 ^ 31 by omega) (by omega)]
      rcases Nat.lt_trichotomy piece.2 next with behind | here | gap
      · obtain ⟨reached, left, moves, advanced⟩ :=
          ih buffer later below.tail (by omega) order near laterClosed expects sacks areBlocks
        refine ⟨reached, left, ?_, advanced.behind (closed piece (by simp) behind)⟩
        rw [if_pos behind]
        exact moves
      · have number : (start.ofPlace next).plus (getSize piece.1) =
            start.ofPlace (finish piece) := by
          rw [← here]
          exact lastByteSeq_eq (by omega)
        have cleared := clearSackList_spec start areBlocks
          (show low ≤ finish piece by omega) inside
        obtain ⟨moved, isMoved⟩ : ∃ moved : TcpRxBuffer, moved = { buffer with
          nextRxSeq := start.ofPlace (finish piece)
          availBytes := buffer.availBytes + getSize piece.1
          sackList := (blocks.filter fun block => finish piece < block.2).map
            (numberBlock start) } := ⟨_, rfl⟩
        have movedNext : moved.nextRxSeq = start.ofPlace (finish piece) := by rw [isMoved]
        have movedSacks : moved.sackList =
            (blocks.filter fun block => finish piece < block.2).map (numberBlock start) := by
          rw [isMoved]
        have movedClosed : ∀ other ∈ rest, other.2 < finish piece → finish other ≤ finish piece := by
          intro other member early
          have := (later.mem member).1
          omega
        obtain ⟨reached, left, moves, advanced⟩ :=
          ih moved later below.tail (by omega) (by omega) inside movedClosed movedNext movedSacks
            fun block member => areBlocks block (List.mem_of_mem_filter member)
        have further := advanced.further
        have counted : getSize piece.1 + UInt32.ofNat (reached - finish piece) =
            UInt32.ofNat (reached - next) := by
          rw [getSize, ← UInt32.ofNat_add]
          congr 1
          omega
        refine ⟨reached, left, ?_, here ▸ advanced.through (by omega)⟩
        rw [if_neg (by omega), if_neg (by omega), here, number, sacks, cleared]
        change advance (numbered start rest) _ = _
        rw [← isMoved, moves, isMoved, ← counted, UInt32.add_assoc]
      · refine ⟨next, blocks, ?_, Advanced.idle blocks near ?_⟩
        · rw [if_neg (by omega), if_pos gap, ← expects, ← sacks, avail_unmoved]
        · rw [stored_cons]
          rintro (⟨contains, -⟩ | stored)
          · omega
          · have := later.stored_ge stored
            omega

end TcpRxBuffer

end Sacks

end FISim.Tcp
