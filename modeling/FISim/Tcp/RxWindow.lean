import FISim.Tcp.RxCalls

/-!
The window of a receive buffer: what `MaxRxSequence` announces and what `Add` stores, for segments
with any contents in any order.
-/

namespace FISim.Tcp

open Pieces SequenceNumber32 TcpRxBuffer Transition

/-- Where `Add` cuts a segment off: at the end of the window that begins with the first piece. -/
def cutEnd (maxBuffer stop : ℕ) : List Piece → ℕ
  | [] => stop
  | first :: _ => min stop (first.2 + maxBuffer)

theorem cutEnd_le (maxBuffer stop : ℕ) (pieces : List Piece) : cutEnd maxBuffer stop pieces ≤ stop := by
  cases pieces with
  | nil => exact Nat.le_refl stop
  | cons first rest => exact Nat.min_le_left _ _

structure NearPlaces (low next place stop maxBuffer : ℕ) (pieces : List Piece) : Prop where
  early : next < place + 2 ^ 31
  late : place < low + 2 ^ 31
  order : place ≤ stop
  window : ∀ first ∈ pieces.head?,
    first.2 + maxBuffer < place + 2 ^ 31 ∧ stop < first.2 + maxBuffer + 2 ^ 31

namespace Windowed

variable {start : SequenceNumber32} {low next place : ℕ} {pieces : List Piece}
  {buffer : TcpRxBuffer} {p : Packet} (windowed : Windowed start low next pieces buffer)

include windowed

theorem offset_first {first : Piece} (isFirst : first ∈ pieces.head?) :
    buffer.offset (start.ofPlace first.2) = (first.2 : ℤ) - low := by
  have member := List.mem_of_mem_head? isFirst
  have above := (windowed.chained.mem member).1
  have inside := windowed.below first member
  rw [finish] at inside
  exact windowed.offset_eq (by omega) (by omega)

theorem head_data : buffer.data.head? = pieces.head?.map fun first =>
    (start.ofPlace first.2, first.1) := by
  rw [windowed.data, numbered, List.head?_map]

theorem endsBy_iff (before : low ≤ place + 2 ^ 31) (behind : place < low + 2 ^ 31) (limit : ℤ) :
    buffer.EndsBy p (start.ofPlace place) limit ↔
      (cutEnd buffer.maxBuffer.toNat (place + p.length) pieces : ℤ) ≤ low + limit := by
  have first_offset : ∀ first ∈ pieces.head?,
      buffer.offset (start.ofPlace first.2) = (first.2 : ℤ) - low :=
    fun first => windowed.offset_first
  rw [EndsBy, windowed.offset_eq before behind, windowed.head_data]
  cases pieces with
  | nil =>
      simp only [List.head?_nil, Option.map_none, Option.mem_def, reduceCtorEq, false_and,
        exists_false, or_false, cutEnd]
      omega
  | cons first rest =>
      have offset := first_offset first (by simp)
      simp only [List.head?_cons, Option.map_some, Option.mem_some_iff, exists_eq_left', offset, cutEnd]
      omega

theorem near_places (before : low ≤ place + 2 ^ 31) (behind : place < low + 2 ^ 31)
    (near : buffer.Near p (start.ofPlace place)) :
    NearPlaces low next place (place + p.length) buffer.maxBuffer.toNat pieces := by
  obtain ⟨early, window⟩ := near
  rw [windowed.offset_nextRxSeq, windowed.offset_eq before behind] at early
  refine ⟨by omega, behind, Nat.le_add_right _ _, fun first isFirst => ?_⟩
  have offset := windowed.offset_first isFirst
  have bounds := window (start.ofPlace first.2, first.1) (by
    rw [windowed.head_data, Option.mem_def.mp isFirst]
    rfl)
  rw [offset, windowed.offset_eq before behind] at bounds
  omega

theorem trimToWindow_eq {stop : ℕ}
    (near : NearPlaces low next place stop buffer.maxBuffer.toNat pieces) :
    ∃ head, buffer.trimToWindow (start.ofPlace place) (start.ofPlace stop) =
        (start.ofPlace head, start.ofPlace (cutEnd buffer.maxBuffer.toNat stop pieces)) ∧
      (head = max place next ∨ cutEnd buffer.maxBuffer.toNat stop pieces ≤ max place next ∧
        head = cutEnd buffer.maxBuffer.toNat stop pieces) ∧
      (pieces = [] ∨ head ≤ cutEnd buffer.maxBuffer.toNat stop pieces) := by
  have order := windowed.order
  have nextNear := windowed.near
  obtain ⟨early, late, ordered, window⟩ := near
  have headSeq : (if (start.ofPlace place).less (start.ofPlace next) then start.ofPlace next
      else start.ofPlace place) = start.ofPlace (max place next) := by
    have compare := ofPlace_less start (show place < next + 2 ^ 31 by omega) early
    by_cases behind : place < next
    · rw [if_pos (compare.mpr behind), max_eq_right (Nat.le_of_lt behind)]
    · rw [if_neg (compare.not.mpr behind), max_eq_left (Nat.le_of_not_lt behind)]
  rw [trimToWindow, windowed.expects, headSeq, windowed.data]
  cases pieces with
  | nil => exact ⟨max place next, rfl, Or.inl rfl, Or.inl rfl⟩
  | cons first rest =>
      obtain ⟨limitLow, limitHigh⟩ := window first (by simp)
      have above := windowed.chained.1
      have tailSeq : (if (start.ofPlace (first.2 + buffer.maxBuffer.toNat)).less (start.ofPlace stop)
          then start.ofPlace (first.2 + buffer.maxBuffer.toNat) else start.ofPlace stop) =
            start.ofPlace (min stop (first.2 + buffer.maxBuffer.toNat)) := by
        have compare := ofPlace_less start (show first.2 + buffer.maxBuffer.toNat < stop + 2 ^ 31 by
          omega) limitHigh
        by_cases beyond : first.2 + buffer.maxBuffer.toNat < stop
        · rw [if_pos (compare.mpr beyond), min_eq_right (Nat.le_of_lt beyond)]
        · rw [if_neg (compare.not.mpr beyond), min_eq_left (Nat.le_of_not_lt beyond)]
      have compare := ofPlace_less start
        (show min stop (first.2 + buffer.maxBuffer.toNat) < max place next + 2 ^ 31 by omega)
        (by omega)
      simp only [numbered_cons, ofPlace_plus, tailSeq, cutEnd]
      by_cases inverted : min stop (first.2 + buffer.maxBuffer.toNat) < max place next
      · refine ⟨_, by rw [if_pos (compare.mpr inverted)], Or.inr ⟨inverted.le, rfl⟩,
          Or.inr (Nat.le_refl _)⟩
      · exact ⟨_, by rw [if_neg (compare.not.mpr inverted)], Or.inl rfl,
          Or.inr (Nat.le_of_not_lt inverted)⟩

theorem advance_some {joined : List Piece} {size : UInt32} {sackList : List SackBlock}
    {moved : TcpRxBuffer} (chained : Chained low joined)
    (ends : ∀ piece ∈ joined, finish piece ≤ low + buffer.maxBuffer.toNat)
    (holds : size.toNat = total joined)
    (moves : advance (numbered start joined)
      { buffer with data := numbered start joined, size, sackList } = some moved) :
    ∃ low' next', Windowed start low' next' joined moved.countFin := by
  have order := windowed.order
  have small := windowed.small
  have nextNear := windowed.near
  have fin := windowed.fin
  rw [windowed.expects] at fin
  obtain ⟨reached, availBytes, sackList, rfl, further⟩ := TcpRxBuffer.advance_some
    (fun piece member => (chained.mem member).1)
    (fun piece member => by have := ends piece member; omega) order nextNear
    (by exact windowed.expects) moves
  have within : reached = next ∨ next ≤ reached ∧ reached ≤ low + buffer.maxBuffer.toNat := by
    refine further.imp_right ?_
    rintro ⟨forward, piece, member, rfl⟩
    exact ⟨forward, ends piece member⟩
  have counts := countFin_moved { buffer with
    nextRxSeq := start.ofPlace reached, availBytes, data := numbered start joined, size, sackList }
  rw [countFin] at counts ⊢
  by_cases counted : (buffer.gotFin && decide (start.ofPlace reached = buffer.finSeq)) = true
  · rw [if_pos counted] at counts ⊢
    have near : reached + 1 < low + 2 ^ 31 := by
      rw [Bool.and_eq_true, decide_eq_true_eq] at counted
      rcases within with rfl | within
      · exact fin counted.1 counted.2
      · omega
    exact ⟨_, reached + 1, windowed_of rfl chained (by omega) ends holds (ofPlace_next start reached)
      near (fun got same => absurd same (counts got)) windowed.high small⟩
  · rw [if_neg counted] at counts ⊢
    exact ⟨_, reached, windowed_of rfl chained (by omega) ends holds rfl (by omega)
      (fun got same => absurd same (counts got)) windowed.high small⟩

theorem insert_some {kept : List Piece} {left : UInt32} {head tail first stop : ℕ}
    {sequenceNumber : SequenceNumber32} {after : TcpRxBuffer}
    (trimmed : Trimmed pieces buffer.size head tail kept left first stop) (nextHead : next ≤ head)
    (tailEnd : tail ≤ low + buffer.maxBuffer.toNat)
    (inserted : buffer.insert p sequenceNumber
      { data := numbered start kept, size := left, headSeq := start.ofPlace first,
        tailSeq := start.ofPlace stop } = some after) :
    ∃ (fragment : Packet) (low' next' : ℕ), fragment.length = stop - first ∧
      Windowed start low' next' (insertPiece (fragment, first) kept) after := by
  have order := windowed.order
  have small := windowed.small
  have firstHead := trimmed.head_le
  have some_left := trimmed.some_left
  have stopTail := trimmed.le_tail
  have length := ofPlace_minus start (show first ≤ stop by omega) (by omega)
  obtain ⟨fragment, cut, goes⟩ := Option.bind_eq_some_iff.mp inserted
  have short : fragment.length ≤ stop - first := by
    rw [createFragment] at cut
    split at cut
    · cases cut
    · obtain rfl := Option.some.inj cut
      rw [List.length_take, length]
      exact Nat.min_le_left _ _
  have fragmentSize := getSize_toNat (show fragment.length < 2 ^ 32 by omega)
  dsimp only at goes
  split at goes
  · cases goes
  rename_i asserted
  rw [not_not, ← UInt32.toNat_inj, length, fragmentSize] at asserted
  split at goes
  · cases goes
  obtain ⟨reported, reports, moves⟩ := Option.bind_eq_some_iff.mp goes
  obtain ⟨moved, advanced, isAfter⟩ := Option.bind_eq_some_iff.mp moves
  obtain rfl := Option.some.inj isAfter
  obtain ⟨sackList, rfl⟩ := reportSack_some reports
  have keptChained := Chained.sublist trimmed.sublist windowed.chained
  have keptEnds : ∀ piece ∈ kept, finish piece ≤ low + buffer.maxBuffer.toNat :=
    fun piece member => windowed.ends piece (trimmed.sublist.subset member)
  have fragmentEnd : finish (fragment, first) = stop := by
    change first + fragment.length = stop
    omega
  have free : ∀ other ∈ kept, other.2 ≠ first := by
    intro other member
    have positive := (keptChained.mem member).2
    rcases trimmed.apart other member with before | behind
    · rw [finish] at before
      omega
    · omega
  have stores : RxData.store (start.ofPlace first) fragment (numbered start kept) =
      numbered start (insertPiece (fragment, first) kept) :=
    store_numbered (fragment, first) keptChained
      (fun piece member => by have := keptEnds piece member; omega)
      (show low ≤ first by omega) (show first < low + 2 ^ 31 by omega) free
  have chained : Chained low (insertPiece (fragment, first) kept) := by
    refine chained_insertPiece keptChained (show low ≤ first by omega)
      (show 0 < fragment.length by omega) ?_
    rw [fragmentEnd]
    exact trimmed.apart
  have ends : ∀ piece ∈ insertPiece (fragment, first) kept,
      finish piece ≤ low + buffer.maxBuffer.toNat := by
    intro piece member
    rcases List.mem_cons.mp ((insertPiece_perm _ _).mem_iff.mp member) with rfl | stays
    · omega
    · exact keptEnds piece stays
  have totalLow : total (insertPiece (fragment, first) kept) ≤ low + 2 ^ 31 - low := chained.total_le
    (fun piece member => by have := ends piece member; omega) (Nat.le_add_right _ _)
  have sizes : (left + getSize fragment).toNat = total (insertPiece (fragment, first) kept) := by
    have removed := trimmed.size
    have held := windowed.size
    rw [total_insertPiece] at totalLow ⊢
    dsimp only at totalLow ⊢
    rw [UInt32.toNat_add, fragmentSize, Nat.mod_eq_of_lt (by omega)]
    omega
  rw [stores] at advanced
  obtain ⟨low', next', kept⟩ := windowed.advance_some chained ends sizes advanced
  exact ⟨fragment, low', next', asserted.symm, kept⟩

theorem maxRxSequence_eq (unknown : buffer.gotFin = false) :
    buffer.maxRxSequence = start.ofPlace (low + buffer.maxBuffer.toNat) := by
  have begins : buffer.maxRxSequence = buffer.windowStart.plus buffer.maxBuffer := by
    rw [maxRxSequence, windowStart, unknown, if_neg Bool.false_ne_true]
    cases buffer.data with
    | nil => rfl
    | cons first rest =>
        dsimp only
        split
        · rfl
        · rfl
  rw [begins, windowed.windowStart_eq, ofPlace_plus]

/-- What lies in the window, and before the FIN, has a number less than `MaxRxSequence`. -/
theorem less_maxRxSequence {byte : ℕ} (above : low ≤ byte)
    (inside : byte < low + buffer.maxBuffer.toNat)
    (before : buffer.gotFin = true → (byte : ℤ) < low + buffer.offset buffer.finSeq) :
    (start.ofPlace byte).less buffer.maxRxSequence = true := by
  have small := windowed.small
  by_cases known : buffer.gotFin = true
  · have early := before known
    obtain ⟨last, isLast, lower, upper⟩ := exists_place start buffer.finSeq windowed.high
    rw [isLast, windowed.offset_eq lower upper] at early
    rw [maxRxSequence, if_pos known, isLast, ofPlace_less start (by omega) (by omega)]
    omega
  · rw [windowed.maxRxSequence_eq (Bool.not_eq_true _ ▸ known), ofPlace_less start (by omega) (by omega)]
    exact inside

theorem add_some {sequenceNumber : SequenceNumber32} {after : TcpRxBuffer} {answer : Bool}
    (respects : Respects buffer (.add p sequenceNumber))
    (added : buffer.add p sequenceNumber = some (after, answer)) :
    (∃ low' next' pieces', Windowed start low' next' pieces' after) ∧ StoresWithin buffer after := by
  obtain ⟨near, leaves⟩ := respects
  obtain ⟨place, rfl, before, behind⟩ :=
    exists_place start sequenceNumber windowed.high
  have places := windowed.near_places before behind near
  rw [windowed.endsBy_iff before behind, windowed.endsBy_iff before behind,
    windowed.endsBy_iff before behind, windowed.offset_eq before behind,
    windowed.offset_nextRxSeq] at leaves
  obtain ⟨head, window, isHead, ordered⟩ := windowed.trimToWindow_eq places
  have order := windowed.order
  have small := windowed.small
  have cutStop := cutEnd_le buffer.maxBuffer.toNat (place + p.length) pieces
  have whole : pieces = [] →
      cutEnd buffer.maxBuffer.toNat (place + p.length) pieces = place + p.length := by
    rintro rfl
    rfl
  obtain ⟨early, late, -, limits⟩ := places
  have short : p.length < 2 ^ 32 := by
    cases pieces with
    | nil =>
        rw [cutEnd] at leaves
        omega
    | cons first rest =>
        have := limits first (by simp)
        omega
  have tailSeq : (start.ofPlace place).plus (getSize p) = start.ofPlace (place + p.length) := by
    rw [ofPlace_plus, getSize_toNat short]
  simp only [TcpRxBuffer.add, tailSeq, window, windowed.data] at added
  generalize cutEnd buffer.maxBuffer.toNat (place + p.length) pieces = cut at *
  have unchanged : ∀ held ∈ buffer.data, held ∈ buffer.data ∨ ∀ byte < held.2.length,
      (held.1.plus (UInt32.ofNat byte)).less buffer.maxRxSequence = true :=
    fun held member => Or.inl member
  have nothing : { buffer with data := numbered start pieces } = buffer := by
    rw [← windowed.data]
  by_cases some_left : max place next < cut
  · obtain ⟨within, fin⟩ : cut ≤ low + buffer.maxBuffer.toNat ∧
        (buffer.gotFin = true → (cut : ℤ) ≤ low + buffer.offset buffer.finSeq) := by
      rcases leaves with nothing | ⟨within, fin⟩
      · omega
      · exact ⟨by omega, fin⟩
    have starts : head = max place next := by omega
    rcases removeOverlaps_spec start head buffer.size windowed.chained windowed.below (by omega)
      (show head < cut by omega) (by omega) (Nat.le_of_eq windowed.size.symm) with
      ⟨kept, left, first, stop, looped, trimmed, -⟩ | ⟨first, stop, looped, crossed, close, -, -⟩
    · have firstHead := trimmed.head_le
      have some_bytes := trimmed.some_left
      have stopCut := trimmed.le_tail
      have goesOn := ofPlace_greaterEqual start (show first < stop + 2 ^ 31 by omega) (by omega)
      rw [looped, if_neg (by rw [goesOn]; omega)] at added
      obtain ⟨inserted, isInserted, same⟩ := Option.map_eq_some_iff.mp added
      obtain ⟨rfl, -⟩ := Prod.mk.inj same
      obtain ⟨fragment, low', next', length, reached⟩ :=
        windowed.insert_some trimmed (by omega) within isInserted
      refine ⟨⟨low', next', _, reached⟩, ?_⟩
      intro held member
      rw [reached.data, numbered] at member
      obtain ⟨piece, isPiece, rfl⟩ := List.mem_map.mp member
      rcases List.mem_cons.mp ((insertPiece_perm _ _).mem_iff.mp isPiece) with rfl | stays
      · refine Or.inr fun byte inside => ?_
        change byte < fragment.length at inside
        change ((start.ofPlace first).plus _).less _ = true
        rw [ofPlace_plus, UInt32.toNat_ofNat', Nat.mod_eq_of_lt (by omega)]
        refine windowed.less_maxRxSequence (by omega) (by omega) fun got => ?_
        have := fin got
        omega
      · refine Or.inl ?_
        rw [windowed.data]
        exact List.mem_map_of_mem (trimmed.sublist.subset stays)
    · have ends := ofPlace_greaterEqual start (show first < stop + 2 ^ 31 by omega) (by omega)
      rw [looped] at added
      simp only [if_pos (ends.mpr crossed), nothing] at added
      obtain ⟨rfl, -⟩ := Prod.mk.inj (Option.some.inj added)
      exact ⟨⟨low, next, pieces, windowed⟩, unchanged⟩
  · have dropped : ∃ headSeq tailSeq,
        removeOverlaps (numbered start pieces) buffer.size (start.ofPlace head) (start.ofPlace cut) =
          { data := numbered start pieces, size := buffer.size, headSeq, tailSeq } ∧
        headSeq.greaterEqual tailSeq = true := by
      by_cases same : head = cut
      · rw [same]
        exact removeOverlaps_empty windowed.chained windowed.below buffer.size (start.ofPlace cut)
      · obtain rfl : pieces = [] := ordered.resolve_right (by omega)
        have cutWhole := whole rfl
        refine ⟨start.ofPlace head, start.ofPlace cut, rfl, ?_⟩
        rw [ofPlace_greaterEqual start (by omega) (by omega)]
        omega
    obtain ⟨headSeq, tailSeq, looped, ends⟩ := dropped
    rw [looped] at added
    simp only [if_pos ends, nothing] at added
    obtain ⟨rfl, -⟩ := Prod.mk.inj (Option.some.inj added)
    exact ⟨⟨low, next, pieces, windowed⟩, unchanged⟩

end Windowed

namespace TcpRxBuffer

variable {start : SequenceNumber32} {low : ℕ} {pieces : List Piece} {buffer after : TcpRxBuffer}

theorem createFragment_some {packet fragment : Packet} {offset count : UInt32}
    (cut : createFragment packet offset count = some fragment) :
    fragment = (packet.drop offset.toNat).take count.toNat := by
  rw [createFragment] at cut
  split at cut
  · cases cut
  · exact (Option.some.inj cut).symm

theorem extractLoop_some (fuel : ℕ) {extractSize : UInt32} {outPkt taken : Packet}
    (data : buffer.data = numbered start pieces) (chained : Chained low pieces)
    (below : Below (low + 2 ^ 31) pieces) (size : buffer.size.toNat = total pieces)
    (loops : extractLoop fuel extractSize outPkt buffer = some (after, taken)) :
    ∃ (left : List Piece) (size availBytes : UInt32),
      after = { buffer with data := numbered start left, size, availBytes } ∧
      Chained low left ∧ size.toNat = total left ∧
      ∀ piece ∈ left, ∃ earlier ∈ pieces, finish piece = finish earlier := by
  induction fuel generalizing low pieces buffer extractSize outPkt with
  | zero => cases loops
  | succ fuel ih =>
      rw [extractLoop] at loops
      split at loops
      · obtain ⟨rfl, -⟩ := Prod.mk.inj (Option.some.inj loops)
        exact ⟨pieces, buffer.size, buffer.availBytes, by rw [← data], chained, size,
          fun piece member => ⟨piece, member, rfl⟩⟩
      · rename_i some_left
        cases pieces with
        | nil =>
            rw [data] at loops
            cases loops
        | cons piece rest =>
            have inside := below piece (by simp)
            have bytes : finish piece = piece.2 + piece.1.length := rfl
            have above := chained.1
            have length := getSize_toNat (show piece.1.length < 2 ^ 32 by omega)
            rw [total_cons] at size
            simp only [data, numbered_cons] at loops
            split at loops
            · split at loops
              · obtain ⟨left, leftSize, availBytes, rfl, leftChained, total, ends⟩ :=
                  ih (by rfl) chained.2.2
                    (below.tail.raise (by omega)) (by
                      change (buffer.size - getSize piece.1).toNat = total rest
                      rw [UInt32.toNat_sub_of_le]
                      · omega
                      · rw [UInt32.le_iff_toNat_le]
                        omega) loops
                refine ⟨left, leftSize, availBytes, rfl, leftChained.mono (by omega), total, ?_⟩
                intro other member
                obtain ⟨earlier, known, same⟩ := ends other member
                exact ⟨earlier, List.mem_cons_of_mem piece known, same⟩
              · rename_i part
                rw [UInt32.le_iff_toNat_le, length, not_le] at part
                have some_bytes : 0 < extractSize.toNat :=
                  Nat.pos_of_ne_zero fun zero => some_left (UInt32.toNat_inj.mp zero)
                obtain ⟨front, -, goes⟩ := Option.bind_eq_some_iff.mp loops
                obtain ⟨back, isBack, moves⟩ := Option.bind_eq_some_iff.mp goes
                have rest_size : (getSize piece.1 - extractSize).toNat =
                    (piece.1.drop extractSize.toNat).length := by
                  rw [UInt32.toNat_sub_of_le, length, List.length_drop]
                  rw [UInt32.le_iff_toNat_le, length]
                  exact part.le
                rw [createFragment_some isBack, rest_size, List.take_length, ← numbered_cons,
                  store_behind chained below extractSize some_bytes part] at moves
                have end_same := finish_behind part.le
                obtain ⟨left, leftSize, availBytes, rfl, leftChained, total, ends⟩ :=
                  ih (by rfl) (chained_behind chained part) (by
                      intro other member
                      rcases List.mem_cons.mp member with rfl | later
                      · omega
                      · have := below other (List.mem_cons_of_mem piece later)
                        omega) (by
                      change (buffer.size - extractSize).toNat = _
                      rw [UInt32.toNat_sub_of_le, total_cons, behind, List.length_drop]
                      · omega
                      · rw [UInt32.le_iff_toNat_le]
                        omega) moves
                refine ⟨left, leftSize, availBytes, rfl, leftChained.mono (by omega), total, ?_⟩
                intro other member
                obtain ⟨earlier, known, same⟩ := ends other member
                rcases List.mem_cons.mp known with rfl | later
                · exact ⟨piece, by simp, same.trans end_same⟩
                · exact ⟨earlier, List.mem_cons_of_mem piece later, same⟩
            · cases loops

end TcpRxBuffer

namespace Windowed

variable {start : SequenceNumber32} {low next : ℕ} {pieces : List Piece}
  {buffer after : TcpRxBuffer} (windowed : Windowed start low next pieces buffer)

include windowed

theorem size_le : buffer.size ≤ buffer.maxBuffer := by
  have inside := windowed.chained.total_le_of_ends windowed.ends (Nat.le_add_right _ _)
  rw [UInt32.le_iff_toNat_le, windowed.size]
  omega

theorem extract_some {maxSize : UInt32} {answer : Option Packet}
    (extracted : buffer.extract maxSize = some (after, answer)) :
    ∃ low' pieces', Windowed start low' next pieces' after := by
  have itself : some (buffer, none) = some (after, answer) →
      ∃ low' pieces', Windowed start low' next pieces' after := by
    intro same
    obtain ⟨rfl, -⟩ := Prod.mk.inj (Option.some.inj same)
    exact ⟨low, pieces, windowed⟩
  rw [TcpRxBuffer.extract] at extracted
  dsimp only at extracted
  split at extracted
  · exact itself extracted
  · split at extracted
    · cases extracted
    · obtain ⟨⟨left, outPkt⟩, loops, same⟩ := Option.bind_eq_some_iff.mp extracted
      obtain ⟨rfl, -⟩ := Prod.mk.inj (Option.some.inj same)
      obtain ⟨held, size, availBytes, rfl, chained, total, ends⟩ :=
        extractLoop_some _ windowed.data windowed.chained windowed.below windowed.size loops
      refine ⟨_, held, windowed_of rfl chained windowed.order ?_ total windowed.expects windowed.near
        windowed.fin windowed.high windowed.small⟩
      intro piece member
      obtain ⟨earlier, known, same⟩ := ends piece member
      exact same ▸ windowed.ends earlier known

theorem setFinSequence (s : SequenceNumber32) (respects : Respects buffer (.setFinSequence s)) :
    ∃ low' next', Windowed start low' next' pieces (buffer.setFinSequence s) := by
  have near := windowed.near
  have order := windowed.order
  rw [Respects, windowed.offset_nextRxSeq] at respects
  have counts := countFin_moved { buffer with gotFin := true, finSeq := s }
  have same : buffer.setFinSequence s =
      countFin { buffer with gotFin := true, finSeq := s } := by
    rw [TcpRxBuffer.setFinSequence, countFin]
    simp
  rw [same]
  rw [countFin] at counts ⊢
  by_cases counted : (true && decide (buffer.nextRxSeq = s)) = true
  · rw [if_pos counted] at counts ⊢
    rw [Bool.true_and, decide_eq_true_eq] at counted
    have moved := respects counted.symm
    refine ⟨_, next + 1, windowed_of windowed.data windowed.chained (by omega) windowed.ends
      windowed.size ?_ (by omega) (fun got same => absurd same (counts got)) windowed.high
      windowed.small⟩
    rw [windowed.expects]
    exact ofPlace_next start next
  · rw [if_neg counted] at counts ⊢
    exact ⟨_, next, windowed_of windowed.data windowed.chained order windowed.ends windowed.size
      windowed.expects near (fun got same => absurd same (counts got)) windowed.high windowed.small⟩

theorem setMaxBufferSize (s : UInt32) (respects : Respects buffer (.setMaxBufferSize s)) :
    Windowed start low next pieces (buffer.setMaxBufferSize s) := by
  obtain ⟨small, inside⟩ := respects
  constructor
  · exact windowed.data
  · exact windowed.isLow
  · exact windowed.chained
  · intro piece member
    have above := (windowed.chained.mem member).1
    have below := windowed.below piece member
    have bytes : finish piece = piece.2 + piece.1.length := rfl
    have ends := inside (start.ofPlace piece.2, piece.1) (by
      rw [windowed.data]
      exact List.mem_map_of_mem member)
    rw [windowed.offset_eq (by omega) (by omega)] at ends
    dsimp only at ends
    change finish piece ≤ low + s.toNat
    omega
  · exact windowed.size
  · exact windowed.expects
  · exact windowed.near
  · exact windowed.fin
  · exact windowed.high
  · exact small

theorem eq_nil_of_size (empty : buffer.size = 0) : pieces = [] := by
  have size := windowed.size
  have chained := windowed.chained
  rw [empty] at size
  cases pieces with
  | nil => rfl
  | cons piece rest =>
      have positive := chained.2.1
      rw [total_cons] at size
      change 0 = _ at size
      omega

end Windowed

/-- The state of a buffer that holds no more than its window. -/
def InWindow (buffer : TcpRxBuffer) : Prop :=
  ∃ start low next pieces, Windowed start low next pieces buffer

theorem Windowed.setNextRxSequence {start : SequenceNumber32} {low next : ℕ} {pieces : List Piece}
    {buffer : TcpRxBuffer} (windowed : Windowed start low next pieces buffer) (s : SequenceNumber32)
    (respects : Respects buffer (.setNextRxSequence s)) : InWindow (buffer.setNextRxSequence s) := by
  cases pieces with
  | nil =>
      obtain ⟨start, reached⟩ := windowed_empty (buffer.setNextRxSequence s) windowed.data
        (UInt32.toNat_inj.mp windowed.size) windowed.small
      exact ⟨start, _, _, _, reached⟩
  | cons first rest =>
      have above := windowed.chained.1
      have high := windowed.high
      obtain ⟨place, rfl, before, behind⟩ :=
        exists_place start s (show 2 ^ 31 ≤ first.2 by omega)
      obtain ⟨forward, near⟩ := respects (start.ofPlace first.2, first.1) (by
        rw [windowed.head_data]
        rfl)
      rw [toInt_ofPlace_minus before behind] at forward near
      have chained : Chained first.2 (first :: rest) := ⟨Nat.le_refl _, windowed.chained.2⟩
      refine ⟨start, _, place, first :: rest, windowed_of windowed.data chained (by omega) ?_
        windowed.size rfl (by omega) (fun _ _ => by omega) (by omega) windowed.small⟩
      intro piece member
      have ends := windowed.ends piece member
      change finish piece ≤ first.2 + buffer.maxBuffer.toNat
      omega

theorem Windowed.incNextRxSequence {start : SequenceNumber32} {low next : ℕ} {pieces : List Piece}
    {buffer after : TcpRxBuffer} (windowed : Windowed start low next pieces buffer)
    (moved : buffer.incNextRxSequence = some after) : InWindow after := by
  rw [TcpRxBuffer.incNextRxSequence] at moved
  split at moved
  · rename_i empty
    obtain rfl := windowed.eq_nil_of_size empty
    obtain rfl := Option.some.inj moved
    obtain ⟨start, reached⟩ := windowed_empty
      { buffer with nextRxSeq := buffer.nextRxSeq.next } windowed.data empty windowed.small
    exact ⟨start, _, _, _, reached⟩
  · cases moved

theorem call_keeps {buffer after : TcpRxBuffer} {happens : Call} (inWindow : InWindow buffer)
    (respects : Respects buffer happens) (called : call buffer happens = some after) :
    InWindow after := by
  obtain ⟨start, low, next, pieces, windowed⟩ := inWindow
  cases happens with
  | add p sequenceNumber =>
      obtain ⟨⟨left, answer⟩, added, rfl⟩ := Option.map_eq_some_iff.mp called
      obtain ⟨low', next', pieces', reached⟩ := (windowed.add_some respects added).1
      exact ⟨start, low', next', pieces', reached⟩
  | extract maxSize =>
      obtain ⟨⟨left, answer⟩, extracted, rfl⟩ := Option.map_eq_some_iff.mp called
      obtain ⟨low', pieces', reached⟩ := windowed.extract_some extracted
      exact ⟨start, low', next, pieces', reached⟩
  | setFinSequence s =>
      obtain rfl := Option.some.inj called
      obtain ⟨low', next', reached⟩ := windowed.setFinSequence s respects
      exact ⟨start, low', next', pieces, reached⟩
  | setMaxBufferSize s =>
      obtain rfl := Option.some.inj called
      exact ⟨start, low, next, pieces, windowed.setMaxBufferSize s respects⟩
  | setNextRxSequence s =>
      obtain rfl := Option.some.inj called
      exact windowed.setNextRxSequence s respects
  | incNextRxSequence => exact windowed.incNextRxSequence called

theorem inWindow_constructed (n : UInt32) : InWindow (constructed n) := by
  obtain ⟨start, windowed⟩ := windowed_empty (constructed n) rfl rfl (by
    change (32768 : UInt32).toNat + 1 < 2 ^ 31
    decide)
  exact ⟨start, _, _, _, windowed⟩

/-- No state holds more than `MaxBufferSize`, and no `Add` stores a byte at `MaxRxSequence` or
behind it. -/
structure WindowRespected (start : TcpRxBuffer) (calls : List Call) : Prop where
  size : Throughout call (fun buffer => buffer.size ≤ buffer.maxBuffer) start calls
  stores : ∀ first p sequenceNumber second before after answer,
    calls = first ++ .add p sequenceNumber :: second → run call start first = some before →
      before.add p sequenceNumber = some (after, answer) → StoresWithin before after

theorem window_respected (n : UInt32) (calls : List Call)
    (respects : Guarded call Respects (constructed n) calls) :
    WindowRespected (constructed n) calls := by
  constructor
  · intro first second buffer split ran
    obtain ⟨start, low, next, pieces, windowed⟩ :=
      throughout_of_guarded (fun _ _ _ => call_keeps) (inWindow_constructed n) respects first second
        buffer split ran
    exact windowed.size_le
  · rintro first p sequenceNumber second before after answer rfl ran added
    obtain ⟨start, low, next, pieces, windowed⟩ := run_invariant (fun _ _ _ => call_keeps)
      (inWindow_constructed n) respects.append_left ran
    exact (windowed.add_some (respects.append_right ran).1 added).2

/-- Segments out of order, one of which is cut off at the window, and the FIN before the last. -/
def filling : List Call :=
  [.setMaxBufferSize 8, .add [4, 5] ⟨1⟩, .add [1, 2, 3] ⟨4294967294⟩, .extract 2,
    .add [6, 7, 8, 9, 10, 11, 12] ⟨3⟩, .setFinSequence ⟨8⟩, .extract 100]

theorem window_respected_filling : WindowRespected (constructed 4294967294) filling :=
  window_respected 4294967294 filling (by decide +kernel)

/-- An empty buffer of 4 bytes takes 5 bytes. -/
theorem window_overrun :
    ∃ before after, run call (constructed 0) [.setMaxBufferSize 4] = some before ∧
      before.add [1, 2, 3, 4, 5] ⟨0⟩ = some (after, true) ∧
      before.maxRxSequence = ⟨4⟩ ∧ after.data = [(⟨0⟩, [1, 2, 3, 4, 5])] ∧
      ¬ StoresWithin before after ∧ ¬ after.size ≤ after.maxBuffer := by
  refine ⟨_, _, rfl, rfl, rfl, rfl, ?_, by decide⟩
  intro within
  rcases within (⟨0⟩, [1, 2, 3, 4, 5]) (by decide) with before | less
  · exact absurd before (by decide)
  · exact absurd (less 4 (by decide)) (by decide)

end FISim.Tcp
