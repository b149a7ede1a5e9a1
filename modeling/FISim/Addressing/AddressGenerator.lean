import FISim.Lib.Ranges
import FISim.Lib.Transition
import Mathlib.Data.UInt

/-!
`Ipv4AddressGeneratorImpl`: the ranges of addresses that are allocated, and what the three
functions that look at them answer.
-/

namespace FISim.Addressing

open Ranges Transition

abbrev Ipv4Address := UInt32
abbrev Ipv4Mask := UInt32

def combineMask (address : Ipv4Address) (mask : Ipv4Mask) : Ipv4Address := address &&& mask

structure Entry where
  addrLow : UInt32
  addrHigh : UInt32
  deriving DecidableEq

structure AddressGenerator where
  entries : List Entry := []
  test : Bool := false
  deriving DecidableEq

/-- The loop of `AddAllocated`, which finds a collision or the place for the address. -/
def allocate (addr : UInt32) : List Entry → Option (List Entry)
  | [] => some [{ addrLow := addr, addrHigh := addr }]
  | i :: rest =>
      if i.addrLow ≤ addr ∧ addr ≤ i.addrHigh then none
      else if addr < i.addrLow - 1 then
        some ({ addrLow := addr, addrHigh := addr } :: i :: rest)
      else if addr = i.addrHigh + 1 then
        if rest.head?.any fun j => addr = j.addrLow then none
        else some ({ i with addrHigh := addr } :: rest)
      else if addr = i.addrLow - 1 then some ({ i with addrLow := addr } :: rest)
      else (allocate addr rest).map (i :: ·)

namespace AddressGenerator

variable (generator : AddressGenerator)

/-- A collision is fatal unless the generator is tested. -/
def addAllocated (address : Ipv4Address) : Option (Bool × AddressGenerator) :=
  if address = 0 then none
  else
    match allocate address generator.entries with
    | some entries => some (true, { generator with entries })
    | none => if generator.test then some (false, generator) else none

/-- True where the address is free. -/
def isAddressAllocated (address : Ipv4Address) : Option Bool :=
  if address = 0 then none
  else some (generator.entries.all fun i => ¬ (i.addrLow ≤ address ∧ address ≤ i.addrHigh))

/-- True where neither end of any range is in the network. -/
def isNetworkAllocated (address : Ipv4Address) (mask : Ipv4Mask) : Option Bool :=
  if address ≠ combineMask address mask then none
  else some (generator.entries.all fun i =>
    ¬ (address = combineMask i.addrLow mask ∨ address = combineMask i.addrHigh mask))

end AddressGenerator

def Entry.range (entry : Entry) : Range ℕ := ⟨entry.addrLow.toNat, entry.addrHigh.toNat⟩

def ranges (entries : List Entry) : List (Range ℕ) := entries.map Entry.range

@[simp] theorem ranges_cons (entry : Entry) (rest : List Entry) :
    ranges (entry :: rest) = entry.range :: ranges rest := rfl

section Numbers

variable {addr : UInt32} {entry : Entry}

theorem contains_iff :
    entry.range.Contains addr.toNat ↔ entry.addrLow ≤ addr ∧ addr ≤ entry.addrHigh := by
  rw [UInt32.le_iff_toNat_le, UInt32.le_iff_toNat_le]
  rfl

theorem low_sub_one (positive : 0 < entry.addrLow.toNat) :
    (entry.addrLow - 1).toNat + 1 = entry.addrLow.toNat := by
  have one : (1 : UInt32) ≤ entry.addrLow := UInt32.le_iff_toNat_le.mpr positive
  rw [UInt32.toNat_sub_of_le _ _ one]
  exact Nat.sub_add_cancel positive

theorem eq_high_add_one_iff (nonzero : addr ≠ 0) :
    addr = entry.addrHigh + 1 ↔ addr.toNat = entry.addrHigh.toNat + 1 := by
  have bound := addr.toNat_lt
  have high := entry.addrHigh.toNat_lt
  have positive : addr.toNat ≠ 0 := fun zero => nonzero (UInt32.toNat_inj.mp zero)
  rw [← UInt32.toNat_inj, UInt32.toNat_add]
  change addr.toNat = (entry.addrHigh.toNat + 1) % 2 ^ 32 ↔ _
  omega

end Numbers

structure Grown (addr : UInt32) (entries after : List Entry) : Prop where
  free : ¬ Covers (ranges entries) addr.toNat
  ordered : Ordered (ranges after)
  covers : ∀ place, Covers (ranges after) place ↔ place = addr.toNat ∨ Covers (ranges entries) place

section Growing

variable {addr : UInt32} {i : Entry} {rest : List Entry}

theorem Grown.last (addr : UInt32) : Grown addr [] [{ addrLow := addr, addrHigh := addr }] := by
  refine ⟨covers_nil _, ?_, ?_⟩
  · exact ordered_cons_iff.mpr ⟨le_refl _, ordered_nil, fun _ covered => absurd covered (covers_nil _)⟩
  · intro place
    rw [ranges_cons, covers_cons, Range.Contains, Entry.range]
    exact or_congr_left ⟨fun inside => Nat.le_antisymm inside.2 inside.1, fun same =>
      ⟨Nat.le_of_eq same.symm, Nat.le_of_eq same⟩⟩

theorem Grown.first (ordered : Ordered (ranges (i :: rest))) (less : addr.toNat < i.addrLow.toNat) :
    Grown addr (i :: rest) ({ addrLow := addr, addrHigh := addr } :: i :: rest) := by
  have behind : ∀ place, Covers (ranges (i :: rest)) place → addr.toNat < place := by
    obtain ⟨some_place, -, before⟩ := ordered_cons_iff.mp ordered
    intro place covered
    rcases (covers_cons _ _ _).mp covered with here | later
    · exact less.trans_le here.1
    · exact less.trans_le (some_place.trans (before place later).le)
  refine ⟨fun covered => Nat.lt_irrefl _ (behind _ covered), ?_, ?_⟩
  · exact ordered_cons_iff.mpr ⟨le_refl _, ordered, behind⟩
  · intro place
    rw [ranges_cons, covers_cons, Range.Contains, Entry.range]
    exact or_congr_left ⟨fun inside => Nat.le_antisymm inside.2 inside.1, fun same =>
      ⟨Nat.le_of_eq same.symm, Nat.le_of_eq same⟩⟩

theorem Grown.up (ordered : Ordered (ranges (i :: rest)))
    (next : addr.toNat = i.addrHigh.toNat + 1) (free : ¬ Covers (ranges rest) addr.toNat) :
    Grown addr (i :: rest) ({ i with addrHigh := addr } :: rest) := by
  obtain ⟨some_place, later, before⟩ := ordered_cons_iff.mp ordered
  change i.addrLow.toNat ≤ i.addrHigh.toNat at some_place
  change ∀ place, Covers (ranges rest) place → i.addrHigh.toNat < place at before
  refine ⟨?_, ordered_cons_iff.mpr ⟨?_, later, ?_⟩, ?_⟩
  · rw [ranges_cons, covers_cons, not_or]
    refine ⟨fun inside => ?_, free⟩
    have upper : addr.toNat ≤ i.addrHigh.toNat := inside.2
    omega
  · change i.addrLow.toNat ≤ addr.toNat
    omega
  · intro place covered
    have apart : place ≠ addr.toNat := fun same => free (same ▸ covered)
    have above := before place covered
    change addr.toNat < place
    omega
  · intro place
    simp only [ranges_cons, covers_cons, Range.Contains, Entry.range, ← or_assoc]
    refine or_congr_left ?_
    omega

theorem Grown.down (ordered : Ordered (ranges (i :: rest)))
    (next : addr.toNat + 1 = i.addrLow.toNat) :
    Grown addr (i :: rest) ({ i with addrLow := addr } :: rest) := by
  obtain ⟨some_place, later, before⟩ := ordered_cons_iff.mp ordered
  change i.addrLow.toNat ≤ i.addrHigh.toNat at some_place
  refine ⟨?_, ordered_cons_iff.mpr ⟨?_, later, before⟩, ?_⟩
  · rw [ranges_cons, covers_cons]
    rintro (inside | covered)
    · have lower : i.addrLow.toNat ≤ addr.toNat := inside.1
      omega
    · have above : i.addrHigh.toNat < addr.toNat := before _ covered
      omega
  · change addr.toNat ≤ i.addrHigh.toNat
    omega
  · intro place
    simp only [ranges_cons, covers_cons, Range.Contains, Entry.range, ← or_assoc]
    refine or_congr_left ?_
    omega

theorem Grown.later (ordered : Ordered (ranges (i :: rest))) (above : i.addrHigh.toNat < addr.toNat)
    {after : List Entry} (grown : Grown addr rest after) :
    Grown addr (i :: rest) (i :: after) := by
  obtain ⟨some_place, -, before⟩ := ordered_cons_iff.mp ordered
  refine ⟨?_, ordered_cons_iff.mpr ⟨some_place, grown.ordered, ?_⟩, ?_⟩
  · rw [ranges_cons, covers_cons, not_or]
    exact ⟨fun inside => Nat.not_le.mpr above inside.2, grown.free⟩
  · intro place covered
    rcases (grown.covers place).mp covered with rfl | old
    · exact above
    · exact before place old
  · intro place
    rw [ranges_cons, ranges_cons, covers_cons, covers_cons, grown.covers]
    exact or_left_comm

theorem head_covers (ordered : Ordered (ranges rest))
    (collides : rest.head?.any fun j => addr = j.addrLow) : Covers (ranges rest) addr.toNat := by
  cases rest with
  | nil => cases collides
  | cons j rest =>
      have same : addr = j.addrLow := of_decide_eq_true collides
      refine (covers_cons _ _ _).mpr (Or.inl ⟨Nat.le_of_eq (congrArg UInt32.toNat same.symm), ?_⟩)
      rw [same]
      exact ordered.nonempty _ List.mem_cons_self

theorem head_of_covers (ordered : Ordered (ranges rest)) (covered : Covers (ranges rest) addr.toNat)
    (least : ∀ place, Covers (ranges rest) place → addr.toNat ≤ place) :
    rest.head?.any fun j => addr = j.addrLow := by
  cases rest with
  | nil => exact absurd covered (covers_nil _)
  | cons j rest =>
      have begins : j.addrLow.toNat = addr.toNat := ordered.low_of_least covered least
      exact decide_eq_true (UInt32.toNat_inj.mp begins.symm)

end Growing

theorem allocate_spec {entries : List Entry} {addr : UInt32} (ordered : Ordered (ranges entries))
    (free : ¬ Covers (ranges entries) 0) (nonzero : addr ≠ 0) :
    (Covers (ranges entries) addr.toNat ∧ allocate addr entries = none) ∨
      ∃ after, allocate addr entries = some after ∧ Grown addr entries after := by
  induction entries with
  | nil => exact Or.inr ⟨_, rfl, .last addr⟩
  | cons i rest ih =>
      obtain ⟨some_place, later, before⟩ := ordered_cons_iff.mp ordered
      rw [ranges_cons, covers_cons, not_or] at free
      have low : 0 < i.addrLow.toNat := by
        by_contra zero
        exact free.1 ⟨Nat.le_of_not_lt zero, Nat.zero_le _⟩
      have under := low_sub_one low
      rw [allocate]
      by_cases inside : i.addrLow ≤ addr ∧ addr ≤ i.addrHigh
      · rw [if_pos inside]
        exact Or.inl ⟨(covers_cons _ _ _).mpr (Or.inl (contains_iff.mpr inside)), rfl⟩
      · rw [if_neg inside]
        by_cases front : addr < i.addrLow - 1
        · rw [if_pos front]
          have less := UInt32.lt_iff_toNat_lt.mp front
          exact Or.inr ⟨_, rfl, .first ordered (by omega)⟩
        · rw [if_neg front]
          by_cases next : addr = i.addrHigh + 1
          · rw [if_pos next]
            have value := (eq_high_add_one_iff nonzero).mp next
            by_cases collides : rest.head?.any fun j => addr = j.addrLow
            · rw [if_pos collides]
              refine Or.inl ⟨(covers_cons _ _ _).mpr (Or.inr ?_), rfl⟩
              exact head_covers later collides
            · rw [if_neg collides]
              refine Or.inr ⟨_, rfl, .up ordered value fun covered => collides ?_⟩
              refine head_of_covers later covered fun place other => ?_
              rw [value]
              exact before place other
          · rw [if_neg next]
            by_cases previous : addr = i.addrLow - 1
            · rw [if_pos previous]
              exact Or.inr ⟨_, rfl, .down ordered (by rw [previous]; exact under)⟩
            · rw [if_neg previous]
              have above : i.addrHigh.toNat < addr.toNat := by
                rw [← contains_iff] at inside
                rw [UInt32.lt_iff_toNat_lt] at front
                rw [← UInt32.toNat_inj] at previous
                by_contra within
                exact inside ⟨by change i.addrLow.toNat ≤ addr.toNat; omega, Nat.le_of_not_lt within⟩
              rcases ih later free.2 with ⟨covered, none⟩ | ⟨after, ran, grown⟩
              · exact Or.inl ⟨(covers_cons _ _ _).mpr (Or.inr covered), by rw [none]; rfl⟩
              · exact Or.inr ⟨i :: after, by rw [ran]; rfl, grown.later ordered above⟩

namespace AddressGenerator

variable {generator : AddressGenerator}

def testMode : AddressGenerator := { test := true }

def step (generator : AddressGenerator) (address : Ipv4Address) : Option AddressGenerator :=
  (generator.addAllocated address).map Prod.snd

structure Records (generator : AddressGenerator) (passed : Set Ipv4Address) : Prop where
  test : generator.test = true
  ordered : Ordered (ranges generator.entries)
  exact : ∀ address : Ipv4Address, Covers (ranges generator.entries) address.toNat ↔ address ∈ passed

theorem records_testMode : Records testMode ∅ :=
  ⟨rfl, ordered_nil, fun address => iff_of_false (covers_nil address.toNat) id⟩

theorem Records.addAllocated {passed : Set Ipv4Address} (records : generator.Records passed)
    (zero : 0 ∉ passed) {address : Ipv4Address} (nonzero : address ≠ 0) :
    ∃ answer next, generator.addAllocated address = some (answer, next) ∧
      (answer = true ↔ address ∉ passed) ∧ next.Records (insert address passed) := by
  have free : ¬ Covers (ranges generator.entries) 0 := (records.exact 0).not.mpr zero
  rcases allocate_spec records.ordered free nonzero with ⟨covered, none⟩ | ⟨after, ran, grown⟩
  · have known := (records.exact address).mp covered
    refine ⟨false, generator, ?_, iff_of_false Bool.false_ne_true (not_not.mpr known), ?_⟩
    · simp [AddressGenerator.addAllocated, nonzero, none, records.test]
    · rw [Set.insert_eq_of_mem known]
      exact records
  · have fresh : address ∉ passed := (records.exact address).not.mp grown.free
    refine ⟨true, { generator with entries := after }, ?_, iff_of_true rfl fresh, ?_⟩
    · simp [AddressGenerator.addAllocated, nonzero, ran]
    · refine ⟨records.test, grown.ordered, fun other => ?_⟩
      rw [Set.mem_insert_iff, ← records.exact]
      exact (grown.covers other.toNat).trans (or_congr_left UInt32.toNat_inj)

theorem Records.isAddressAllocated {passed : Set Ipv4Address} (records : generator.Records passed)
    {address : Ipv4Address} (nonzero : address ≠ 0) :
    ∃ answer, generator.isAddressAllocated address = some answer ∧
      (answer = true ↔ address ∉ passed) := by
  refine ⟨_, if_neg nonzero, ?_⟩
  rw [← records.exact, List.all_eq_true]
  constructor
  · rintro outside ⟨range, member, inside⟩
    obtain ⟨i, isEntry, rfl⟩ := List.mem_map.mp member
    exact of_decide_eq_true (outside i isEntry) (contains_iff.mp inside)
  · intro free i isEntry
    refine decide_eq_true fun inside => free ⟨i.range, List.mem_map_of_mem isEntry, ?_⟩
    exact contains_iff.mpr inside

/-- An address of the network is allocated, but only within ranges that begin and end outside. -/
def Hidden (entries : List Entry) (address : Ipv4Address) (mask : Ipv4Mask) : Prop :=
  (∃ i ∈ entries, ∃ a, i.addrLow < a ∧ a < i.addrHigh ∧ combineMask a mask = address) ∧
    ∀ i ∈ entries, combineMask i.addrLow mask ≠ address ∧ combineMask i.addrHigh mask ≠ address

theorem Records.isNetworkAllocated {passed : Set Ipv4Address} (records : generator.Records passed)
    {address : Ipv4Address} {mask : Ipv4Mask} (network : address = combineMask address mask) :
    ∃ answer, generator.isNetworkAllocated address mask = some answer ∧
      ((answer = true ↔ ∀ a ∈ passed, combineMask a mask ≠ address) ↔
        ¬ Hidden generator.entries address mask) := by
  refine ⟨_, if_neg (not_not.mpr network), ?_⟩
  have ends : (generator.entries.all fun i => ¬ (address = combineMask i.addrLow mask ∨
      address = combineMask i.addrHigh mask)) = true ↔
        ∀ i ∈ generator.entries,
          combineMask i.addrLow mask ≠ address ∧ combineMask i.addrHigh mask ≠ address := by
    rw [List.all_eq_true]
    refine forall₂_congr fun i _ => decide_eq_true_iff.trans ?_
    rw [not_or]
    exact and_congr ne_comm ne_comm
  have inside : ∀ i ∈ generator.entries, ∀ a, i.addrLow ≤ a → a ≤ i.addrHigh → a ∈ passed := by
    intro i isEntry a lower upper
    refine (records.exact a).mp ⟨i.range, List.mem_map_of_mem isEntry, ?_⟩
    exact contains_iff.mpr ⟨lower, upper⟩
  rw [ends, Hidden]
  constructor
  · rintro right ⟨⟨i, isEntry, a, lower, upper, same⟩, outside⟩
    exact right.mp outside a (inside i isEntry a (UInt32.le_of_lt lower) (UInt32.le_of_lt upper)) same
  · intro shown
    refine ⟨fun outside a known same => shown ⟨?_, outside⟩, fun free i isEntry => ?_⟩
    · obtain ⟨range, member, contains⟩ := (records.exact a).mpr known
      obtain ⟨i, isEntry, rfl⟩ := List.mem_map.mp member
      obtain ⟨lower, upper⟩ := contains_iff.mp contains
      obtain ⟨first, last⟩ := outside i isEntry
      refine ⟨i, isEntry, a, UInt32.lt_of_le_of_ne lower ?_, UInt32.lt_of_le_of_ne upper ?_, same⟩
      · rintro rfl
        exact first same
      · rintro rfl
        exact last same
    · have some_place := records.ordered.nonempty i.range (List.mem_map_of_mem isEntry)
      have order : i.addrLow ≤ i.addrHigh := UInt32.le_iff_toNat_le.mpr some_place
      exact ⟨free _ (inside i isEntry _ (UInt32.le_refl _) order),
        free _ (inside i isEntry _ order (UInt32.le_refl _))⟩

theorem Records.run {passed : Set Ipv4Address} (records : generator.Records passed)
    (zero : 0 ∉ passed) {addresses : List Ipv4Address} (nonzero : ∀ a ∈ addresses, a ≠ 0) :
    ∃ last, run step generator addresses = some last ∧
      last.Records (passed ∪ {a | a ∈ addresses}) := by
  induction addresses generalizing generator passed with
  | nil =>
      refine ⟨generator, rfl, ?_⟩
      simpa using records
  | cons address rest ih =>
      obtain ⟨answer, next, added, -, after⟩ :=
        records.addAllocated zero (nonzero address List.mem_cons_self)
      have still : 0 ∉ insert address passed := by
        rintro (same | old)
        · exact nonzero address List.mem_cons_self same.symm
        · exact zero old
      obtain ⟨last, ran, final⟩ :=
        ih after still fun a member => nonzero a (List.mem_cons_of_mem address member)
      refine ⟨last, ?_, ?_⟩
      · rw [run_cons, step, added]
        exact ran
      · convert final using 1
        ext a
        simp [or_left_comm, or_assoc]

/-- After any calls the ranges are the addresses that were passed, in order and without overlap, and
the answers are right, but for networks in which all that is allocated is hidden. -/
theorem allocation_exact {addresses : List Ipv4Address} (nonzero : ∀ a ∈ addresses, a ≠ 0) :
    ∃ generator, run step testMode addresses = some generator ∧
      Ordered (ranges generator.entries) ∧
      (∀ a : Ipv4Address, Covers (ranges generator.entries) a.toNat ↔ a ∈ addresses) ∧
      (∀ a ≠ 0, ∃ answer next, generator.addAllocated a = some (answer, next) ∧
        (answer = true ↔ a ∉ addresses)) ∧
      (∀ a ≠ 0, ∃ answer, generator.isAddressAllocated a = some answer ∧
        (answer = true ↔ a ∉ addresses)) ∧
      ∀ network mask, network = combineMask network mask →
        ∃ answer, generator.isNetworkAllocated network mask = some answer ∧
          ((answer = true ↔ ∀ a ∈ addresses, combineMask a mask ≠ network) ↔
            ¬ Hidden generator.entries network mask) := by
  obtain ⟨generator, ran, records⟩ := records_testMode.run (Set.notMem_empty 0) nonzero
  rw [Set.empty_union] at records
  have zero : (0 : Ipv4Address) ∉ {a | a ∈ addresses} := fun member => nonzero 0 member rfl
  refine ⟨generator, ran, records.ordered, records.exact, fun a other => ?_, fun a other => ?_, ?_⟩
  · obtain ⟨answer, next, added, right, -⟩ := records.addAllocated zero other
    exact ⟨answer, next, added, right⟩
  · exact records.isAddressAllocated other
  · exact fun network mask => records.isNetworkAllocated

theorem allocation_exact_three :
    ∃ generator, run step testMode [3, 5, 4] = some generator ∧
      Ordered (ranges generator.entries) ∧
      (∀ a : Ipv4Address, Covers (ranges generator.entries) a.toNat ↔ a ∈ [3, 5, 4]) ∧
      (∀ a ≠ 0, ∃ answer next, generator.addAllocated a = some (answer, next) ∧
        (answer = true ↔ a ∉ [3, 5, 4])) ∧
      (∀ a ≠ 0, ∃ answer, generator.isAddressAllocated a = some answer ∧
        (answer = true ↔ a ∉ [3, 5, 4])) ∧
      ∀ network mask, network = combineMask network mask →
        ∃ answer, generator.isNetworkAllocated network mask = some answer ∧
          ((answer = true ↔ ∀ a ∈ [3, 5, 4], combineMask a mask ≠ network) ↔
            ¬ Hidden generator.entries network mask) :=
  allocation_exact (by simp)

/-- The range from 10.1.1.3 to 10.1.1.6 holds both addresses of 10.1.1.4/31. -/
theorem network_overlooked :
    ∃ generator, run step testMode [0x0a010103, 0x0a010104, 0x0a010105, 0x0a010106] =
        some generator ∧
      generator.isNetworkAllocated 0x0a010104 0xfffffffe = some true ∧
      ¬ ∀ a ∈ [0x0a010103, 0x0a010104, 0x0a010105, 0x0a010106],
        combineMask a 0xfffffffe ≠ 0x0a010104 :=
  ⟨_, rfl, rfl, fun free => free 0x0a010104 (by simp) rfl⟩

/-! The masks of prefixes. -/

/-- The mask keeps all but the last bits. -/
def IsPrefixMask (mask : Ipv4Mask) (bits : ℕ) : Prop :=
  ∀ a : Ipv4Address, (combineMask a mask).toNat = a.toNat / 2 ^ bits * 2 ^ bits

/-- For a prefix, what is hidden is a network within one range that goes on at both of its ends. -/
theorem hidden_iff_within {entries : List Entry} (ordered : Ordered (ranges entries))
    {address : Ipv4Address} {mask : Ipv4Mask} {bits : ℕ} (isPrefix : IsPrefixMask mask bits)
    (network : address = combineMask address mask) :
    Hidden entries address mask ↔ ∃ i ∈ entries, i.addrLow.toNat < address.toNat ∧
      address.toNat + 2 ^ bits ≤ i.addrHigh.toNat := by
  have inside : ∀ a, combineMask a mask = address ↔
      address.toNat ≤ a.toNat ∧ a.toNat < address.toNat + 2 ^ bits := by
    intro a
    have size := Nat.two_pow_pos bits
    have base := isPrefix address
    rw [← network] at base
    rw [← UInt32.toNat_inj, isPrefix a]
    constructor
    · intro same
      rw [← same]
      exact ⟨Nat.div_mul_le_self _ _, Nat.lt_div_mul_add size⟩
    · rintro ⟨lower, upper⟩
      have quotient : a.toNat / 2 ^ bits = address.toNat / 2 ^ bits :=
        Nat.div_eq_of_lt_le (base ▸ lower) (by rw [Nat.add_one_mul, ← base]; exact upper)
      rw [quotient, ← base]
  constructor
  · rintro ⟨⟨i, isEntry, a, lower, upper, same⟩, outside⟩
    rw [UInt32.lt_iff_toNat_lt] at lower upper
    obtain ⟨first, last⟩ := outside i isEntry
    rw [ne_eq, inside] at first last
    have here := (inside a).mp same
    exact ⟨i, isEntry, by omega, by omega⟩
  · rintro ⟨i, isEntry, before, behind⟩
    -- A range with an end in the network meets the range around it, so that it is this range.
    have alone : ∀ j ∈ entries, ∀ a, j.range.Contains a.toNat → combineMask a mask = address →
        j.range = i.range := by
      intro j other a within same
      obtain ⟨lower, upper⟩ := (inside a).mp same
      refine ordered.eq_of_contains (List.mem_map_of_mem other) (List.mem_map_of_mem isEntry) within
        ⟨?_, ?_⟩
      · exact (before.trans_le lower).le
      · exact (upper.trans_le behind).le
    have size := Nat.two_pow_pos bits
    refine ⟨⟨i, isEntry, address, ?_, ?_, network.symm⟩, fun j other => ⟨?_, ?_⟩⟩
    · exact UInt32.lt_iff_toNat_lt.mpr before
    · rw [UInt32.lt_iff_toNat_lt]
      omega
    · intro same
      have filled := ordered.nonempty j.range (List.mem_map_of_mem other)
      have low : j.addrLow.toNat = i.addrLow.toNat :=
        congrArg Range.low (alone j other j.addrLow ⟨le_refl _, filled⟩ same)
      have lower := ((inside _).mp same).1
      omega
    · intro same
      have filled := ordered.nonempty j.range (List.mem_map_of_mem other)
      have high : j.addrHigh.toNat = i.addrHigh.toNat :=
        congrArg Range.high (alone j other j.addrHigh ⟨filled, le_refl _⟩ same)
      have upper := ((inside _).mp same).2
      omega

end AddressGenerator

end FISim.Addressing
