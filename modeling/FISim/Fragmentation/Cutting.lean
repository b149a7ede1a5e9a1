import FISim.Fragmentation.Fragments
import FISim.Lib.Pieces

/-!
`DoFragmentation` comes to an end and its fragments tile the packet.
-/

namespace FISim.Fragmentation

open Pieces

/-- The header of a fragment that carries this part of a packet. -/
structure Heads (ipv4Header : Ipv4Header) (outIfaceMtu : UInt32) (offset : ℕ) (part : Packet)
    (last : Bool) (fragmentHeader : Ipv4Header) : Prop where
  key : fragmentKey fragmentHeader = fragmentKey ipv4Header
  offset : fragmentHeader.fragmentOffset.toNat = offset
  payloadSize : fragmentHeader.payloadSize.toNat = part.length
  fits : part.length + Ipv4Header.serializedSize.toNat ≤ outIfaceMtu.toNat
  last : fragmentHeader.isLastFragment = last

/-- The fragments carry the payload one part after the other, from this offset of the datagram
on.  All but the last are multiples of 8 bytes with more fragments to come, and the last one is
the last of the datagram if the packet is. -/
inductive Tiles (ipv4Header : Ipv4Header) (outIfaceMtu : UInt32) :
    ℕ → Packet → List Fragment → Prop
  | last {offset payload fragmentHeader}
      (heads : Heads ipv4Header outIfaceMtu offset payload ipv4Header.isLastFragment
        fragmentHeader) :
      Tiles ipv4Header outIfaceMtu offset payload [(payload, fragmentHeader)]
  | more {offset part rest fragmentHeader fragments}
      (heads : Heads ipv4Header outIfaceMtu offset part false fragmentHeader)
      (aligned : 8 ∣ part.length) (follows : rest ≠ [])
      (tiles : Tiles ipv4Header outIfaceMtu (offset + part.length) rest fragments) :
      Tiles ipv4Header outIfaceMtu offset (part ++ rest) ((part, fragmentHeader) :: fragments)

theorem toNat_and_seven (size : UInt16) : (size &&& 7).toNat = size.toNat % 8 := by
  rw [UInt16.toNat_and]
  exact Nat.and_two_pow_sub_one_eq_mod size.toNat 3

theorem toNat_and_not_seven (size : UInt32) : (size &&& ~~~7).toNat = size.toNat / 8 * 8 := by
  have below := size.toNat_lt
  have mask : (~~~7 : UInt32).toNat = (2 ^ 29 - 1) * 2 ^ 3 := rfl
  rw [UInt32.toNat_and, mask, show size.toNat / 8 * 8 = size.toNat / 2 ^ 3 * 2 ^ 3 from rfl]
  apply Nat.eq_of_testBit_eq
  intro bit
  rw [Nat.testBit_and, Nat.testBit_mul_two_pow, Nat.testBit_mul_two_pow, Nat.testBit_two_pow_sub_one,
    Nat.testBit_div_two_pow]
  by_cases low : 3 ≤ bit
  · rw [Nat.sub_add_cancel low]
    by_cases high : bit - 3 < 29
    · simp [low, high]
    · have zero : size.toNat.testBit bit = false :=
        Nat.testBit_lt_two_pow (Nat.lt_of_lt_of_le below (Nat.pow_le_pow_right (by omega) (by omega)))
      simp [zero]
  · simp [low]

theorem setFragmentOffset_of_aligned {header : Ipv4Header} {offset : UInt16}
    (aligned : 8 ∣ offset.toNat) :
    header.setFragmentOffset offset = some { header with fragmentOffset := offset } := by
  have zero : offset &&& 7 = 0 := by
    apply UInt16.toNat_inj.mp
    rw [toNat_and_seven]
    exact Nat.mod_eq_zero_of_dvd aligned
  simp [Ipv4Header.setFragmentOffset, zero]

section Loop

variable {p : Packet} {ipv4Header : Ipv4Header} {fragmentSize outIfaceMtu : UInt32}

theorem heads_of_placed {offset : UInt16} {flagged : Ipv4Header} {part : Packet} {size : UInt32}
    {last : Bool} {start : ℕ}
    (key : fragmentKey flagged = fragmentKey ipv4Header) (flag : flagged.isLastFragment = last)
    (place : offset.toNat = start) (length : size.toNat = part.length)
    (short : part.length < 2 ^ 16)
    (fits : part.length + Ipv4Header.serializedSize.toNat ≤ outIfaceMtu.toNat) :
    Heads ipv4Header outIfaceMtu start part last
      (({ flagged with fragmentOffset := offset } : Ipv4Header).setPayloadSize size.toUInt16) := by
  constructor
  · exact key
  · exact place
  · change size.toUInt16.toNat = part.length
    rw [UInt32.toNat_toUInt16, length]
    exact Nat.mod_eq_of_lt short
  · exact fits
  · exact flag

theorem fragmentLoop_more (fuel : ℕ) {offset : UInt16}
    (more : offset.toUInt32 + fragmentSize < getSize p)
    (placed : 8 ∣ (offset + ipv4Header.fragmentOffset).toNat) :
    fragmentLoop p ipv4Header fragmentSize (fuel + 1) offset =
      (fragmentLoop p ipv4Header fragmentSize fuel (offset + fragmentSize.toUInt16)).map
        ((createFragment p offset.toUInt32 fragmentSize,
          ({ ipv4Header.setMoreFragments with
            fragmentOffset := offset + ipv4Header.fragmentOffset } : Ipv4Header).setPayloadSize
              fragmentSize.toUInt16) :: ·) := by
  rw [fragmentLoop]
  simp only [more, decide_true, if_true, Bool.true_or, setFragmentOffset_of_aligned placed,
    Option.bind_eq_bind, Option.bind_some]
  exact Option.map_eq_bind.symm

theorem fragmentLoop_last (fuel : ℕ) {offset : UInt16}
    (last : ¬ offset.toUInt32 + fragmentSize < getSize p)
    (placed : 8 ∣ (offset + ipv4Header.fragmentOffset).toNat) :
    ∃ flagged : Ipv4Header, fragmentKey flagged = fragmentKey ipv4Header ∧
      flagged.isLastFragment = ipv4Header.isLastFragment ∧
      fragmentLoop p ipv4Header fragmentSize (fuel + 1) offset =
        some [(createFragment p offset.toUInt32 (getSize p - offset.toUInt32),
          ({ flagged with
            fragmentOffset := offset + ipv4Header.fragmentOffset } : Ipv4Header).setPayloadSize
              (getSize p - offset.toUInt32).toUInt16)] := by
  rw [fragmentLoop]
  simp only [last, decide_false, Bool.false_or, setFragmentOffset_of_aligned placed,
    Option.bind_eq_bind, Option.bind_some]
  refine ⟨if (!ipv4Header.isLastFragment) = true then ipv4Header.setMoreFragments
    else ipv4Header.setLastFragment, ?_, ?_, rfl⟩
  · split <;> rfl
  · cases flag : ipv4Header.isLastFragment with
    | true => simp [ipv4Header.isLastFragment_setLastFragment]
    | false => simp [ipv4Header.isLastFragment_setMoreFragments]

theorem fragmentLoop_tiles (fuel : ℕ) (offset : UInt16)
    (aligned : 8 ∣ ipv4Header.fragmentOffset.toNat)
    (inside : ipv4Header.fragmentOffset.toNat + p.length ≤ 65515)
    (multiple : 8 ∣ fragmentSize.toNat) (positive : 0 < fragmentSize.toNat)
    (room : fragmentSize.toNat + Ipv4Header.serializedSize.toNat ≤ outIfaceMtu.toNat)
    (start : 8 ∣ offset.toNat) (within : offset.toNat ≤ p.length)
    (later : offset.toNat = 0 ∨ fragmentSize.toNat < p.length)
    (enough : p.length - offset.toNat < fuel) :
    ∃ fragments, fragmentLoop p ipv4Header fragmentSize fuel offset = some fragments ∧
      Tiles ipv4Header outIfaceMtu (ipv4Header.fragmentOffset.toNat + offset.toNat)
        (p.drop offset.toNat) fragments := by
  have small := fragmentSize.toNat_lt
  have total : (getSize p).toNat = p.length := by
    rw [getSize, UInt32.toNat_ofNat']
    exact Nat.mod_eq_of_lt (by omega)
  induction fuel generalizing offset with
  | zero => omega
  | succ fuel ih =>
      have widened : offset.toUInt32.toNat = offset.toNat := UInt16.toNat_toUInt32 offset
      have reach : (offset.toUInt32 + fragmentSize).toNat = offset.toNat + fragmentSize.toNat := by
        rw [UInt32.toNat_add, widened]
        exact Nat.mod_eq_of_lt (by omega)
      have place : (offset + ipv4Header.fragmentOffset).toNat =
          ipv4Header.fragmentOffset.toNat + offset.toNat := by
        rw [UInt16.toNat_add]
        omega
      have placed : 8 ∣ (offset + ipv4Header.fragmentOffset).toNat := by omega
      by_cases more : offset.toUInt32 + fragmentSize < getSize p
      · have goes : offset.toNat + fragmentSize.toNat < p.length := by
          rw [UInt32.lt_iff_toNat_lt, reach, total] at more
          exact more
        have next : (offset + fragmentSize.toUInt16).toNat =
            offset.toNat + fragmentSize.toNat := by
          rw [UInt16.toNat_add, UInt32.toNat_toUInt16]
          omega
        obtain ⟨rest, looped, tiles⟩ := ih (offset + fragmentSize.toUInt16) (by omega) (by omega)
          (by omega) (by omega)
        have length : (createFragment p offset.toUInt32 fragmentSize).length =
            fragmentSize.toNat := by
          rw [createFragment, List.length_take, List.length_drop, widened]
          omega
        have split : p.drop offset.toNat = createFragment p offset.toUInt32 fragmentSize ++
            p.drop (offset + fragmentSize.toUInt16).toNat := by
          rw [createFragment, widened, next, ← List.drop_drop, List.take_append_drop]
        rw [fragmentLoop_more fuel more placed, looped, split]
        refine ⟨_, rfl, ?_⟩
        apply Tiles.more
        · apply heads_of_placed
          · rfl
          · exact ipv4Header.isLastFragment_setMoreFragments
          · exact place
          · exact length.symm
          · omega
          · omega
        · omega
        · apply List.ne_nil_of_length_pos
          rw [List.length_drop]
          omega
        · rw [next, ← Nat.add_assoc] at tiles
          rw [length, next]
          exact tiles
      · have ends : p.length ≤ offset.toNat + fragmentSize.toNat := by
          rw [UInt32.lt_iff_toNat_lt, reach, total] at more
          omega
        have size : (getSize p - offset.toUInt32).toNat = p.length - offset.toNat := by
          rw [UInt32.toNat_sub_of_le]
          · rw [total, widened]
          · rw [UInt32.le_iff_toNat_le, total, widened]
            exact within
        have part : createFragment p offset.toUInt32 (getSize p - offset.toUInt32) =
            p.drop offset.toNat := by
          rw [createFragment, size, widened]
          apply List.take_of_length_le
          rw [List.length_drop]
        obtain ⟨flagged, key, flag, looped⟩ := fragmentLoop_last fuel more placed
        rw [looped, part]
        refine ⟨_, rfl, ?_⟩
        apply Tiles.last
        apply heads_of_placed
        · exact key
        · exact flag
        · exact place
        · rw [size, List.length_drop]
        · rw [List.length_drop]
          omega
        · rw [List.length_drop]
          omega

end Loop

theorem doFragmentation_tiles {packet : Packet} {ipv4Header : Ipv4Header} {outIfaceMtu : UInt32}
    (aligned : 8 ∣ ipv4Header.fragmentOffset.toNat)
    (inside : ipv4Header.fragmentOffset.toNat + packet.length ≤ 65515)
    (mtu : 68 ≤ outIfaceMtu.toNat) :
    ∃ fragments, doFragmentation packet ipv4Header outIfaceMtu = some fragments ∧
      Tiles ipv4Header outIfaceMtu ipv4Header.fragmentOffset.toNat packet fragments := by
  have size : (outIfaceMtu - Ipv4Header.serializedSize).toNat = outIfaceMtu.toNat - 20 := by
    rw [UInt32.toNat_sub_of_le]
    · rfl
    · rw [UInt32.le_iff_toNat_le]
      exact Nat.le_trans (by decide) mtu
  have whole := toNat_and_not_seven (outIfaceMtu - Ipv4Header.serializedSize)
  have header : Ipv4Header.serializedSize.toNat = 20 := rfl
  rw [size] at whole
  apply fragmentLoop_tiles (packet.length + 1) 0 aligned inside
  · omega
  · omega
  · omega
  · exact Nat.dvd_zero 8
  · exact Nat.zero_le _
  · exact Or.inl rfl
  · exact Nat.lt_succ_of_le (Nat.sub_le _ _)

/-- What every fragment of a datagram is, however it was cut. -/
structure CutFrom (payload : Packet) (datagramHeader : Ipv4Header) (fragment : Fragment) :
    Prop where
  key : fragmentKey fragment.2 = fragmentKey datagramHeader
  piece : IsPiece payload fragment.1 fragment.2.fragmentOffset.toNat
  aligned : 8 ∣ fragment.2.fragmentOffset.toNat
  last : fragment.2.isLastFragment = true ↔
    fragment.2.fragmentOffset.toNat + fragment.1.length = payload.length

theorem Tiles.cutFrom {payload part : Packet} {datagramHeader ipv4Header : Ipv4Header}
    {outIfaceMtu : UInt32} {offset : ℕ} {fragments : List Fragment}
    (tiles : Tiles ipv4Header outIfaceMtu offset part fragments)
    (key : fragmentKey ipv4Header = fragmentKey datagramHeader)
    (piece : IsPiece payload part offset) (aligned : 8 ∣ offset)
    (last : ipv4Header.isLastFragment = true ↔ offset + part.length = payload.length) :
    ∀ fragment ∈ fragments, CutFrom payload datagramHeader fragment := by
  induction tiles with
  | last heads =>
      intro fragment member
      rw [List.mem_singleton.mp member]
      have place := heads.offset
      constructor
      · exact heads.key.trans key
      · rw [place]
        exact piece
      · rw [place]
        exact aligned
      · rw [heads.last, place]
        exact last
  | @more offset part rest fragmentHeader fragments heads multiple follows tiles ih =>
      intro fragment member
      have inside := piece.inside
      have behind := List.length_pos_iff.mpr follows
      rw [List.length_append] at inside last
      rcases List.mem_cons.mp member with rfl | later
      · have place := heads.offset
        have flag := heads.last
        have front : IsPiece (part ++ rest) part 0 := by
          constructor
          · simp
          · simp
        constructor
        · exact heads.key.trans key
        · rw [place]
          exact piece.trans front
        · rw [place]
          exact aligned
        · rw [flag, place]
          simp only [Bool.false_eq_true, false_iff]
          omega
      · have back : IsPiece (part ++ rest) rest part.length := by
          constructor
          · simp
          · simp
        apply ih
        · exact piece.trans back
        · omega
        · rw [last, Nat.add_assoc]
        · exact later

/-- The fragments of a datagram, cut any number of times, for any MTUs. -/
inductive FragmentOf (payload : Packet) (datagramHeader : Ipv4Header) : Fragment → Prop
  | whole : FragmentOf payload datagramHeader (payload, datagramHeader)
  | cut {packet ipv4Header outIfaceMtu fragments fragment}
      (from_datagram : FragmentOf payload datagramHeader (packet, ipv4Header))
      (mtu : 68 ≤ UInt32.toNat outIfaceMtu)
      (cuts : doFragmentation packet ipv4Header outIfaceMtu = some fragments)
      (member : fragment ∈ fragments) : FragmentOf payload datagramHeader fragment

theorem FragmentOf.cutFrom {payload : Packet} {datagramHeader : Ipv4Header} {fragment : Fragment}
    (fits : payload.length ≤ 65515) (first : datagramHeader.fragmentOffset = 0)
    (last : datagramHeader.isLastFragment = true) (made : FragmentOf payload datagramHeader fragment) :
    CutFrom payload datagramHeader fragment := by
  induction made with
  | whole =>
      constructor
      · rfl
      · rw [first]
        exact isPiece_whole payload
      · rw [first]
        exact Nat.dvd_zero 8
      · simp [first, last]
  | @cut packet ipv4Header outIfaceMtu fragments fragment made mtu cuts member ih =>
      have inside : ipv4Header.fragmentOffset.toNat + packet.length ≤ payload.length :=
        ih.piece.inside
      obtain ⟨tiling, cut, tiles⟩ :=
        doFragmentation_tiles ih.aligned (Nat.le_trans inside fits) mtu
      obtain rfl := Option.some.inj (cut.symm.trans cuts)
      exact tiles.cutFrom ih.key ih.piece ih.aligned ih.last fragment member

end FISim.Fragmentation
