import FISim.Fragmentation.Cutting
import FISim.Lib.Transition
import Mathlib.Data.List.TakeWhile

/-!
One datagram's fragments arriving in any order: `IsEntire` against what the
fragments received so far cover.
-/

namespace FISim.Fragmentation

open Pieces Transition

/-- The fragment of the greatest offset, and of several such the one that came last. -/
def highest (received : List Fragment) : Option Fragment :=
  received.foldl (fun best fragment =>
    match best with
    | none => some fragment
    | some top => if top.2.fragmentOffset ≤ fragment.2.fragmentOffset then some fragment else some top)
    none

/-- The fragments hold every byte of the payload, and one of them its end. -/
def Covers (payload : Packet) (received : List Fragment) : Prop :=
  (∀ place < payload.length, ∃ fragment ∈ received,
    Contains (fragment.1, fragment.2.fragmentOffset.toNat) place) ∧
  ∃ fragment ∈ received, fragment.2.fragmentOffset.toNat + fragment.1.length = payload.length

instance (payload : Packet) (received : List Fragment) : Decidable (Covers payload received) :=
  inferInstanceAs (Decidable (_ ∧ _))

abbrev Arrival (payload : Packet) (datagramHeader : Ipv4Header) :=
  { fragment : Fragment // FragmentOf payload datagramHeader fragment }

structure Reception where
  mapFragments : MapFragments
  -- history: the fragments that have arrived
  received : List Fragment := []
  packet : Option Packet := none

/-- An arrival, as long as the datagram is not complete. -/
def step {payload : Packet} {datagramHeader : Ipv4Header} (before : Reception)
    (arrival : Arrival payload datagramHeader) : Option Reception :=
  if before.packet.isSome then none
  else do
    let (mapFragments, packet) ←
      processFragment before.mapFragments arrival.val.1 arrival.val.2
    return { mapFragments, received := before.received ++ [arrival.val], packet }

/-- The datagram is complete exactly if the fragments cover it; then the packet is the payload
and the entry is gone. -/
def Agrees (payload : Packet) (datagramHeader : Ipv4Header) (state : Reception) : Prop :=
  (state.packet.isSome ↔ Covers payload state.received) ∧
  ∀ packet, state.packet = some packet →
    packet = payload ∧ state.mapFragments (fragmentKey datagramHeader) = none

/-- Fragments that cover the datagram have its end on top. -/
def EndOnTop {payload : Packet} {datagramHeader : Ipv4Header} (before : Reception)
    (arrival : Arrival payload datagramHeader) : Prop :=
  Covers payload (before.received ++ [arrival.val]) →
    ∀ top ∈ highest (before.received ++ [arrival.val]), top.2.isLastFragment = true

instance {payload : Packet} {datagramHeader : Ipv4Header} (before : Reception)
    (arrival : Arrival payload datagramHeader) : Decidable (EndOnTop before arrival) :=
  inferInstanceAs (Decidable (_ → _))

def held (fragment : Fragment) : Packet × UInt16 := (fragment.1, fragment.2.fragmentOffset)

@[simp] theorem highest_nil : highest [] = none := rfl

theorem highest_concat (received : List Fragment) (fragment : Fragment) :
    highest (received ++ [fragment]) =
      match highest received with
      | none => some fragment
      | some top =>
          if top.2.fragmentOffset ≤ fragment.2.fragmentOffset then some fragment else some top := by
  rw [highest, List.foldl_append]
  rfl

theorem mem_of_highest {received : List Fragment} {top : Fragment}
    (best : highest received = some top) : top ∈ received := by
  induction received using List.reverseRecOn generalizing top with
  | nil => simp at best
  | append_singleton received fragment ih =>
      rw [highest_concat] at best
      cases before : highest received with
      | none =>
          rw [before] at best
          simp [Option.some.inj best]
      | some other =>
          simp only [before] at best
          split at best
          · simp [Option.some.inj best]
          · obtain rfl := Option.some.inj best
            simp [ih before]

namespace Fragments

def Sorted (entry : Fragments) : Prop := entry.fragments.Pairwise fun first second => first.2 ≤ second.2

def spans (fragments : List (Packet × UInt16)) : List (Span UInt8) :=
  fragments.map fun held => (held.1, held.2.toNat)

section AddFragment

variable (entry : Fragments) (fragment : Packet) (offset : UInt16) (more : Bool)

theorem mem_addFragment {each : Packet × UInt16} :
    each ∈ (entry.addFragment fragment offset more).fragments ↔
      each = (fragment, offset) ∨ each ∈ entry.fragments := by
  conv_rhs => rw [← List.takeWhile_append_dropWhile
    (p := fun held : Packet × UInt16 => !decide (held.2 > offset)) (l := entry.fragments)]
  simp only [addFragment, List.mem_append, List.mem_cons]
  tauto

variable {entry} in
theorem le_of_mem_takeWhile {each : Packet × UInt16}
    (member : each ∈ entry.fragments.takeWhile fun held => !decide (held.2 > offset)) :
    each.2 ≤ offset := by
  have low := List.mem_takeWhile_imp member
  simpa using low

variable {entry} in
theorem lt_of_mem_dropWhile (sorted : entry.Sorted) {each : Packet × UInt16}
    (member : each ∈ entry.fragments.dropWhile fun held => !decide (held.2 > offset)) :
    offset < each.2 := by
  have ordered := sorted.sublist
    (List.dropWhile_sublist fun held : Packet × UInt16 => !decide (held.2 > offset))
  cases behind : entry.fragments.dropWhile fun held => !decide (held.2 > offset) with
  | nil => simp [behind] at member
  | cons first rest =>
      have high := List.head?_dropWhile_not
        (fun held : Packet × UInt16 => !decide (held.2 > offset)) entry.fragments
      simp only [behind, List.head?_cons, Bool.not_eq_eq_eq_not, Bool.not_false,
        decide_eq_true_eq] at high
      rw [behind] at member ordered
      rcases List.mem_cons.mp member with rfl | later
      · exact high
      · have := (List.pairwise_cons.mp ordered).1 each later
        exact Nat.lt_of_lt_of_le high this

theorem addFragment_sorted (sorted : entry.Sorted) :
    (entry.addFragment fragment offset more).Sorted := by
  have first := sorted.sublist
    (List.takeWhile_sublist fun held : Packet × UInt16 => !decide (held.2 > offset))
  have second := sorted.sublist
    (List.dropWhile_sublist fun held : Packet × UInt16 => !decide (held.2 > offset))
  apply List.pairwise_append.mpr
  refine ⟨first, List.pairwise_cons.mpr ⟨?_, second⟩, ?_⟩
  · intro each member
    exact Nat.le_of_lt (lt_of_mem_dropWhile offset sorted member)
  · intro each member other behind
    have low := le_of_mem_takeWhile offset member
    rcases List.mem_cons.mp behind with rfl | later
    · exact low
    · have high := lt_of_mem_dropWhile offset sorted later
      exact Nat.le_trans low (Nat.le_of_lt high)

end AddFragment

/-- The entry holds the fragments received, the highest one last and with its flag. -/
structure Tracks (received : List Fragment) (entry : Fragments) : Prop where
  sorted : entry.Sorted
  members : ∀ each, each ∈ entry.fragments ↔ ∃ fragment ∈ received, each = held fragment
  last : entry.fragments.getLast? = (highest received).map held
  flag : ∀ top ∈ highest received, entry.moreFragment = !top.2.isLastFragment

theorem Tracks.empty : Tracks [] {} := by
  constructor
  · exact List.Pairwise.nil
  · simp
  · rfl
  · simp

theorem Tracks.add {received : List Fragment} {entry : Fragments} (tracks : Tracks received entry)
    (fragment : Fragment) :
    Tracks (received ++ [fragment])
      (entry.addFragment fragment.1 fragment.2.fragmentOffset (!fragment.2.isLastFragment)) := by
  have whole := List.takeWhile_append_dropWhile
    (p := fun held : Packet × UInt16 => !decide (held.2 > fragment.2.fragmentOffset))
    (l := entry.fragments)
  have topMember : ∀ top ∈ highest received, held top ∈ entry.fragments :=
    fun top best => (tracks.members _).mpr ⟨top, mem_of_highest best, rfl⟩
  have place : (entry.fragments.dropWhile fun held =>
        !decide (held.2 > fragment.2.fragmentOffset)) = [] ∧
        highest (received ++ [fragment]) = some fragment ∨
      (entry.fragments.dropWhile fun held =>
        !decide (held.2 > fragment.2.fragmentOffset)) ≠ [] ∧
        highest (received ++ [fragment]) = highest received := by
    by_cases behind : (entry.fragments.dropWhile fun held =>
        !decide (held.2 > fragment.2.fragmentOffset)) = []
    · refine Or.inl ⟨behind, ?_⟩
      rw [highest_concat]
      cases best : highest received with
      | none => rfl
      | some top =>
          have member := topMember top best
          rw [← whole, behind, List.append_nil] at member
          have low : top.2.fragmentOffset ≤ fragment.2.fragmentOffset :=
            le_of_mem_takeWhile _ member
          simp [low]
    · refine Or.inr ⟨behind, ?_⟩
      rw [highest_concat]
      have last := tracks.last
      rw [← whole, List.getLast?_append, List.getLast?_eq_getLast_of_ne_nil behind,
        Option.some_or] at last
      cases best : highest received with
      | none => simp [best] at last
      | some top =>
          rw [best, Option.map_some, Option.some.injEq] at last
          have member := List.getLast_mem behind
          rw [last] at member
          have high : fragment.2.fragmentOffset < top.2.fragmentOffset :=
            lt_of_mem_dropWhile _ tracks.sorted member
          have above : ¬ top.2.fragmentOffset ≤ fragment.2.fragmentOffset := by
            intro low
            exact absurd (Nat.lt_of_lt_of_le high low) (Nat.lt_irrefl _)
          simp [above]
  constructor
  · exact entry.addFragment_sorted _ _ _ tracks.sorted
  · intro each
    rw [mem_addFragment, tracks.members]
    simp only [List.mem_append, List.mem_singleton]
    constructor
    · rintro (rfl | ⟨other, member, rfl⟩)
      · exact ⟨fragment, Or.inr rfl, rfl⟩
      · exact ⟨other, Or.inl member, rfl⟩
    · rintro ⟨other, member | rfl, rfl⟩
      · exact Or.inr ⟨other, member, rfl⟩
      · exact Or.inl rfl
  · rcases place with ⟨behind, best⟩ | ⟨behind, best⟩
    · rw [best]
      simp only [addFragment, behind, List.getLast?_concat]
      rfl
    · have last := tracks.last
      rw [← whole, List.getLast?_append, List.getLast?_eq_getLast_of_ne_nil behind,
        Option.some_or] at last
      rw [best, ← last]
      simp only [addFragment, List.getLast?_append, List.getLast?_cons_of_ne_nil behind,
        List.getLast?_eq_getLast_of_ne_nil behind, Option.some_or]
  · rcases place with ⟨behind, best⟩ | ⟨behind, best⟩
    · intro top chosen
      rw [best, Option.mem_some_iff] at chosen
      rw [← chosen]
      simp [addFragment, behind]
    · intro top chosen
      rw [best] at chosen
      simp [addFragment, behind, tracks.flag top chosen]

section Scan

variable {payload : Packet}

def PiecesOf (payload : Packet) (fragments : List (Packet × UInt16)) : Prop :=
  ∀ each ∈ fragments, IsPiece payload each.1 each.2.toNat

omit payload in
theorem toNat_max (first second : UInt16) :
    (max first second).toNat = max first.toNat second.toNat := by
  change (if first ≤ second then second else first).toNat = _
  by_cases less : first ≤ second
  · rw [if_pos less, Nat.max_eq_right (UInt16.le_iff_toNat_le.mp less)]
  · rw [if_neg less]
    rw [UInt16.le_iff_toNat_le] at less
    omega

theorem noGap_iff (fits : payload.length ≤ 65515) {fragments : List (Packet × UInt16)}
    (pieces : PiecesOf payload fragments) (reach : UInt16) :
    noGap reach fragments = true ↔ Gapless reach.toNat (spans fragments) := by
  induction fragments generalizing reach with
  | nil => simp [noGap, spans, Gapless]
  | cons first rest ih =>
      have inside := (pieces first (by simp)).inside
      have size : (getSize first.1).toNat = first.1.length := getSize_toNat (by omega)
      have fragmentEnd : ((getSize first.1 + first.2.toUInt32).toUInt16).toNat =
          first.2.toNat + first.1.length := by
        rw [UInt32.toNat_toUInt16, UInt32.toNat_add, size, UInt16.toNat_toUInt32]
        omega
      have farther : (max reach ((getSize first.1 + first.2.toUInt32).toUInt16)).toNat =
          max reach.toNat (first.2.toNat + first.1.length) := by
        rw [← fragmentEnd, toNat_max]
      rw [noGap]
      by_cases gap : reach < first.2
      · have lower := UInt16.lt_iff_toNat_lt.mp gap
        simp only [gap, if_true, Bool.false_eq_true, false_iff, spans, List.map_cons, Gapless]
        rintro ⟨touches, _⟩
        omega
      · have touches : first.2.toNat ≤ reach.toNat := by
          rw [UInt16.lt_iff_toNat_lt] at gap
          omega
        simp only [gap, if_false, ih (fun each member => pieces each (by simp [member])), farther]
        simp [spans, Gapless, touches, finish]

omit payload in
theorem extend_eq {p : Packet} {reach : UInt16} (length : reach.toNat = p.length)
    {held : Packet × UInt16} (short : held.1.length ≤ 65515) :
    (if reach > held.2 then
      if getSize held.1 > reach.toUInt32 - held.2.toUInt32 then
        p ++ createFragment held.1 (reach.toUInt32 - held.2.toUInt32)
          (getSize held.1 - (reach.toUInt32 - held.2.toUInt32))
      else p
    else p ++ held.1) = p ++ held.1.drop (p.length - held.2.toNat) := by
  have size : (getSize held.1).toNat = held.1.length := getSize_toNat (by omega)
  by_cases overlap : reach > held.2
  · have order := UInt16.lt_iff_toNat_lt.mp overlap
    have newStart : (reach.toUInt32 - held.2.toUInt32).toNat = p.length - held.2.toNat := by
      rw [← length, UInt32.toNat_sub_of_le]
      · rw [UInt16.toNat_toUInt32, UInt16.toNat_toUInt32]
      · rw [UInt32.le_iff_toNat_le, UInt16.toNat_toUInt32, UInt16.toNat_toUInt32]
        omega
    rw [if_pos overlap]
    by_cases adds : getSize held.1 > reach.toUInt32 - held.2.toUInt32
    · have newSize : (getSize held.1 - (reach.toUInt32 - held.2.toUInt32)).toNat =
          held.1.length - (p.length - held.2.toNat) := by
        rw [UInt32.toNat_sub_of_le _ _ (UInt32.le_of_lt adds), size, newStart]
      rw [if_pos adds, createFragment, newStart, newSize]
      congr 1
      apply List.take_of_length_le
      rw [List.length_drop]
    · rw [if_neg adds]
      rw [gt_iff_lt, UInt32.lt_iff_toNat_lt, newStart, size] at adds
      rw [List.drop_of_length_le (by omega), List.append_nil]
  · rw [gt_iff_lt, UInt16.lt_iff_toNat_lt, length] at overlap
    rw [if_neg (by rw [gt_iff_lt, UInt16.lt_iff_toNat_lt, length]; exact overlap),
      show p.length - held.2.toNat = 0 by omega, List.drop_zero]

omit payload in
theorem appendFragments_eq {fragments : List (Packet × UInt16)} {p : Packet}
    (short : p.length ≤ 65515)
    (fits : ∀ held ∈ fragments, held.2.toNat + held.1.length ≤ 65515) :
    appendFragments p (getSize p).toUInt16 fragments = assemble p (spans fragments) := by
  induction fragments generalizing p with
  | nil => rfl
  | cons held rest ih =>
      have inside := fits held (by simp)
      have reach : (getSize p).toUInt16.toNat = p.length := by
        rw [UInt32.toNat_toUInt16, getSize_toNat (by omega)]
        omega
      have longer : (p ++ held.1.drop (p.length - held.2.toNat)).length ≤ 65515 := by
        rw [List.length_append, List.length_drop]
        omega
      have next := ih longer fun other member => fits other (by simp [member])
      rw [appendFragments, extend_eq reach (by omega)]
      exact next

end Scan

section Entry

variable {payload : Packet} {datagramHeader : Ipv4Header} {received : List Fragment}
variable {entry : Fragments}

theorem Tracks.piecesOf (tracks : Tracks received entry)
    (cut : ∀ fragment ∈ received, CutFrom payload datagramHeader fragment) :
    PiecesOf payload entry.fragments := by
  intro each member
  obtain ⟨fragment, arrived, rfl⟩ := (tracks.members each).mp member
  exact (cut fragment arrived).piece

theorem Tracks.contains_iff (tracks : Tracks received entry) (place : ℕ) :
    (∃ span ∈ spans entry.fragments, Contains span place) ↔
      ∃ fragment ∈ received, Contains (fragment.1, fragment.2.fragmentOffset.toNat) place := by
  constructor
  · rintro ⟨span, member, contains⟩
    obtain ⟨each, listed, rfl⟩ := List.mem_map.mp member
    obtain ⟨fragment, arrived, rfl⟩ := (tracks.members each).mp listed
    exact ⟨fragment, arrived, contains⟩
  · rintro ⟨fragment, arrived, contains⟩
    refine ⟨_, List.mem_map_of_mem ((tracks.members _).mpr ⟨fragment, arrived, rfl⟩), contains⟩

theorem Tracks.spans_sorted (tracks : Tracks received entry) :
    (spans entry.fragments).Pairwise fun first second => first.2 ≤ second.2 := by
  apply List.pairwise_map.mpr
  apply tracks.sorted.imp
  intro first second ordered
  exact UInt16.le_iff_toNat_le.mp ordered

theorem Tracks.reached_eq (tracks : Tracks received entry)
    (cut : ∀ fragment ∈ received, CutFrom payload datagramHeader fragment)
    {top : Fragment} (member : top ∈ received) (last : top.2.isLastFragment = true) :
    reached 0 (spans entry.fragments) = payload.length := by
  apply Nat.le_antisymm
  · apply reached_le
    · exact Nat.zero_le _
    · intro span listed
      obtain ⟨each, inside, rfl⟩ := List.mem_map.mp listed
      exact (tracks.piecesOf cut each inside).inside
  · have listed : (top.1, top.2.fragmentOffset.toNat) ∈ spans entry.fragments :=
      List.mem_map.mpr ⟨held top, (tracks.members _).mpr ⟨top, member, rfl⟩, rfl⟩
    rw [← (cut top member).last.mp last]
    exact finish_le_reached listed

theorem Tracks.gapless_iff (tracks : Tracks received entry)
    (cut : ∀ fragment ∈ received, CutFrom payload datagramHeader fragment)
    {top : Fragment} (member : top ∈ received) (last : top.2.isLastFragment = true) :
    Gapless 0 (spans entry.fragments) ↔ Covers payload received := by
  rw [gapless_iff_covers tracks.spans_sorted, tracks.reached_eq cut member last]
  constructor
  · intro covers
    refine ⟨?_, top, member, (cut top member).last.mp last⟩
    intro place below
    exact (tracks.contains_iff place).mp (covers place (Nat.zero_le _) below)
  · intro covers place _ below
    exact (tracks.contains_iff place).mpr (covers.1 place below)

theorem Tracks.isEntire_iff (fits : payload.length ≤ 65515) (tracks : Tracks received entry)
    (cut : ∀ fragment ∈ received, CutFrom payload datagramHeader fragment)
    {top : Fragment} (best : highest received = some top) :
    entry.isEntire = true ↔ top.2.isLastFragment = true ∧ Covers payload received := by
  have member := mem_of_highest best
  have some_held : entry.fragments.isEmpty = false := by
    apply List.isEmpty_eq_false_iff_exists_mem.mpr
    exact ⟨_, (tracks.members _).mpr ⟨top, member, rfl⟩⟩
  rw [isEntire, tracks.flag top best, some_held, Bool.not_not, Bool.not_false, Bool.and_true,
    Bool.and_eq_true, noGap_iff fits (tracks.piecesOf cut)]
  constructor
  · rintro ⟨last, gapless⟩
    exact ⟨last, (tracks.gapless_iff cut member last).mp gapless⟩
  · rintro ⟨last, covers⟩
    exact ⟨last, (tracks.gapless_iff cut member last).mpr covers⟩

theorem Tracks.getPacket_eq (fits : payload.length ≤ 65515) (tracks : Tracks received entry)
    (cut : ∀ fragment ∈ received, CutFrom payload datagramHeader fragment)
    {top : Fragment} (member : top ∈ received) (last : top.2.isLastFragment = true)
    (covers : Covers payload received) : entry.getPacket = some payload := by
  have gapless := (tracks.gapless_iff cut member last).mpr covers
  have reaches := tracks.reached_eq cut member last
  have pieces := tracks.piecesOf cut
  rw [getPacket]
  cases listed : entry.fragments with
  | nil =>
      have inside := (tracks.members _).mpr ⟨top, member, rfl⟩
      simp [listed] at inside
  | cons first rest =>
      rw [listed] at gapless reaches pieces
      obtain ⟨touches, gapless⟩ := gapless
      have piece := pieces first (by simp)
      have inside := piece.inside
      have start : first.2.toNat = 0 := Nat.le_zero.mp touches
      have front : payload.take first.1.length = first.1 := by
        have holds := piece.holds
        rwa [start, List.drop_zero] at holds
      have reach : max 0 (finish (first.1, first.2.toNat)) = first.1.length := by
        change max 0 (first.2.toNat + first.1.length) = first.1.length
        omega
      rw [spans, List.map_cons, reached_cons, reach] at reaches
      rw [reach] at gapless
      have behind : PiecesOf payload rest := fun each later =>
        pieces each (List.mem_cons_of_mem first later)
      have cutFrom : ∀ span ∈ spans rest, IsPiece payload span.1 span.2 := by
        intro span member
        obtain ⟨held, later, rfl⟩ := List.mem_map.mp member
        exact behind held later
      have appended := assemble_eq cutFrom (by omega) gapless
      rw [front] at appended
      have fitsRest : ∀ held ∈ rest, held.2.toNat + held.1.length ≤ 65515 := by
        intro held later
        have within := (behind held later).inside
        omega
      simp only [appendFragments_eq (show first.1.length ≤ 65515 by omega) fitsRest, appended,
        Option.some.injEq]
      rw [spans, reaches, List.take_length]

end Entry

end Fragments

section Runs

variable {payload : Packet} {datagramHeader : Ipv4Header}

/-- What holds between the arrivals up to the one that completes the datagram. -/
structure Inv (payload : Packet) (datagramHeader : Ipv4Header) (state : Reception) : Prop where
  cut : ∀ fragment ∈ state.received, CutFrom payload datagramHeader fragment
  waiting : state.packet = none →
    ¬ Covers payload state.received ∧
    Fragments.Tracks state.received ((state.mapFragments (fragmentKey datagramHeader)).getD {})
  complete : ∀ packet, state.packet = some packet →
    Covers payload state.received ∧ packet = payload ∧
    state.mapFragments (fragmentKey datagramHeader) = none

theorem Inv.agrees {state : Reception} (inv : Inv payload datagramHeader state) :
    Agrees payload datagramHeader state := by
  constructor
  · cases reached : state.packet with
    | none => simp [(inv.waiting reached).1]
    | some packet => simp [(inv.complete packet reached).1]
  · intro packet reached
    exact (inv.complete packet reached).2

theorem step_cases (fits : payload.length ≤ 65515) (first : datagramHeader.fragmentOffset = 0)
    (last : datagramHeader.isLastFragment = true) {before after : Reception}
    {arrival : Arrival payload datagramHeader} (inv : Inv payload datagramHeader before)
    (stepped : step before arrival = some after) :
    after.received = before.received ++ [arrival.val] ∧
    (∀ fragment ∈ after.received, CutFrom payload datagramHeader fragment) ∧
    ∃ top, highest after.received = some top ∧
      (top.2.isLastFragment = true ∧ Covers payload after.received ∧
          after.packet = some payload ∧
          after.mapFragments (fragmentKey datagramHeader) = none ∨
        ¬ (top.2.isLastFragment = true ∧ Covers payload after.received) ∧
          after.packet = none ∧
          Fragments.Tracks after.received
            ((after.mapFragments (fragmentKey datagramHeader)).getD {})) := by
  have cut : ∀ fragment ∈ before.received ++ [arrival.val],
      CutFrom payload datagramHeader fragment := by
    intro fragment member
    rcases List.mem_append.mp member with earlier | now
    · exact inv.cut fragment earlier
    · rw [List.mem_singleton.mp now]
      exact arrival.property.cutFrom fits first last
  obtain ⟨top, best⟩ : ∃ top, highest (before.received ++ [arrival.val]) = some top := by
    rw [highest_concat]
    cases highest before.received with
    | none => exact ⟨_, rfl⟩
    | some other =>
        dsimp only
        split
        · exact ⟨_, rfl⟩
        · exact ⟨_, rfl⟩
  rw [step] at stepped
  split at stepped
  · simp at stepped
  · rename_i running
    have waiting : before.packet = none := by simpa using running
    have tracks := (inv.waiting waiting).2.add arrival.val
    have key := (arrival.property.cutFrom fits first last).key
    have entire := tracks.isEntire_iff fits cut best
    simp only [processFragment, key] at stepped
    split at stepped
    · rename_i complete
      obtain ⟨ends, covers⟩ := entire.mp complete
      rw [tracks.getPacket_eq fits cut (mem_of_highest best) ends covers] at stepped
      obtain rfl := Option.some.inj stepped
      refine ⟨rfl, cut, top, best, Or.inl ⟨ends, covers, rfl, ?_⟩⟩
      exact Function.update_self ..
    · rename_i partly
      obtain rfl := Option.some.inj stepped
      refine ⟨rfl, cut, top, best, Or.inr ⟨?_, rfl, ?_⟩⟩
      · exact fun both => partly (entire.mpr both)
      · simp only [Function.update_self, Option.getD_some]
        exact tracks

theorem step_inv (fits : payload.length ≤ 65515) (first : datagramHeader.fragmentOffset = 0)
    (last : datagramHeader.isLastFragment = true) (before : Reception)
    (arrival : Arrival payload datagramHeader) (after : Reception)
    (inv : Inv payload datagramHeader before) (met : EndOnTop before arrival)
    (stepped : step before arrival = some after) : Inv payload datagramHeader after := by
  obtain ⟨received, cut, top, best, outcome⟩ := step_cases fits first last inv stepped
  rw [EndOnTop, ← received] at met
  constructor
  · exact cut
  · intro open_
    rcases outcome with ⟨-, -, packet, -⟩ | ⟨partly, -, tracks⟩
    · simp [packet] at open_
    · refine ⟨?_, tracks⟩
      intro covers
      exact partly ⟨met covers top best, covers⟩
  · intro packet reached
    rcases outcome with ⟨-, covers, whole, emptied⟩ | ⟨-, none_yet, -⟩
    · rw [whole] at reached
      exact ⟨covers, (Option.some.inj reached).symm, emptied⟩
    · simp [none_yet] at reached

theorem endOnTop_of_agrees (fits : payload.length ≤ 65515)
    (first : datagramHeader.fragmentOffset = 0) (last : datagramHeader.isLastFragment = true)
    (before : Reception) (arrival : Arrival payload datagramHeader) (after : Reception)
    (inv : Inv payload datagramHeader before) (stepped : step before arrival = some after)
    (agrees : Agrees payload datagramHeader after) : EndOnTop before arrival := by
  obtain ⟨received, -, top, best, outcome⟩ := step_cases fits first last inv stepped
  rw [EndOnTop, ← received]
  intro covers other chosen
  rw [best, Option.mem_some_iff] at chosen
  rw [← chosen]
  rcases outcome with ⟨ends, -, -, -⟩ | ⟨-, packet, -⟩
  · exact ends
  · have complete := agrees.1.mpr covers
    simp [packet] at complete

theorem Inv.initial {mapFragments : MapFragments}
    (idle : mapFragments (fragmentKey datagramHeader) = none) :
    Inv payload datagramHeader { mapFragments } := by
  constructor
  · simp
  · intro _
    refine ⟨?_, ?_⟩
    · rintro ⟨-, fragment, member, -⟩
      simp at member
    · simp only [idle, Option.getD_none]
      exact Fragments.Tracks.empty
  · simp

/-- Every packet is cut into fragments that tile it, and a datagram's fragments agree with
`IsEntire` and `GetPacket` after every arrival exactly if, whenever they cover it first, its end
is on top. -/
theorem fragmentation_agrees_iff (fits : payload.length ≤ 65515)
    (first : datagramHeader.fragmentOffset = 0) (last : datagramHeader.isLastFragment = true)
    {mapFragments : MapFragments} (idle : mapFragments (fragmentKey datagramHeader) = none)
    (arrivals : List (Arrival payload datagramHeader))
    (ran : (run step { mapFragments } arrivals).isSome) :
    (∀ packet ipv4Header outIfaceMtu, 8 ∣ ipv4Header.fragmentOffset.toNat →
      ipv4Header.fragmentOffset.toNat + packet.length ≤ 65515 → 68 ≤ outIfaceMtu.toNat →
        ∃ fragments, doFragmentation packet ipv4Header outIfaceMtu = some fragments ∧
          Tiles ipv4Header outIfaceMtu ipv4Header.fragmentOffset.toNat packet fragments) ∧
    (Throughout step (Agrees payload datagramHeader) { mapFragments } arrivals ↔
      Guarded step EndOnTop { mapFragments } arrivals) := by
  constructor
  · intro packet ipv4Header outIfaceMtu aligned inside mtu
    exact doFragmentation_tiles aligned inside mtu
  · exact throughout_iff_guarded_of (fun _ inv => Inv.agrees inv) (step_inv fits first last)
      (endOnTop_of_agrees fits first last) (Inv.initial idle) ran

end Runs

def twoHundred : Packet := List.replicate 200 7

def datagram : Ipv4Header where
  source := 1
  destination := 2
  identification := 5
  protocol := 17
  payloadSize := 200
  flags := 0
  fragmentOffset := 0

def cutFor (outIfaceMtu : UInt32) : List Fragment :=
  (doFragmentation twoHundred datagram outIfaceMtu).getD []

theorem fragmentOf_cutFor {outIfaceMtu : UInt32} (mtu : 68 ≤ outIfaceMtu.toNat)
    {fragment : Fragment} (member : fragment ∈ cutFor outIfaceMtu) :
    FragmentOf twoHundred datagram fragment := by
  rw [cutFor] at member
  cases cuts : doFragmentation twoHundred datagram outIfaceMtu with
  | none => simp [cuts] at member
  | some fragments =>
      rw [cuts] at member
      exact FragmentOf.cut FragmentOf.whole mtu cuts member

def arrivalOf (outIfaceMtu : UInt32) (mtu : 68 ≤ outIfaceMtu.toNat) (index : ℕ)
    (below : index < (cutFor outIfaceMtu).length) : Arrival twoHundred datagram :=
  ⟨(cutFor outIfaceMtu)[index], fragmentOf_cutFor mtu (List.getElem_mem below)⟩

def reversed : List (Arrival twoHundred datagram) :=
  [arrivalOf 124 (by decide) 1 (by decide +kernel), arrivalOf 124 (by decide) 0 (by decide +kernel)]

theorem fragmentation_agrees_iff_reversed :
    (∀ packet ipv4Header outIfaceMtu, 8 ∣ ipv4Header.fragmentOffset.toNat →
      ipv4Header.fragmentOffset.toNat + packet.length ≤ 65515 → 68 ≤ outIfaceMtu.toNat →
        ∃ fragments, doFragmentation packet ipv4Header outIfaceMtu = some fragments ∧
          Tiles ipv4Header outIfaceMtu ipv4Header.fragmentOffset.toNat packet fragments) ∧
    (Throughout step (Agrees twoHundred datagram) { mapFragments := fun _ => none } reversed ↔
      Guarded step EndOnTop { mapFragments := fun _ => none } reversed) :=
  fragmentation_agrees_iff (by rw [twoHundred, List.length_replicate]; decide) rfl rfl rfl reversed (by decide +kernel)

/-- A fragment that starts behind the start of the one that ends the datagram comes later. -/
def overtaken : List (Arrival twoHundred datagram) :=
  [arrivalOf 124 (by decide) 1 (by decide +kernel), arrivalOf 68 (by decide) 3 (by decide +kernel),
    arrivalOf 124 (by decide) 0 (by decide +kernel)]

theorem run_overtaken : (run step { mapFragments := fun _ => none } overtaken).isSome := by
  decide +kernel

theorem overtaken_disagrees :
    ¬ Throughout step (Agrees twoHundred datagram) { mapFragments := fun _ => none } overtaken := by
  intro agrees
  have covered := (agrees overtaken [] _ (List.append_nil _).symm
    (Option.some_get run_overtaken).symm).1
  have covers : Covers twoHundred
      ((run step { mapFragments := fun _ => none } overtaken).get run_overtaken).received := by
    decide +kernel
  have waits : ((run step { mapFragments := fun _ => none } overtaken).get
      run_overtaken).packet = none := by
    decide +kernel
  have complete := covered.mpr covers
  rw [waits] at complete
  simp at complete

end FISim.Fragmentation
