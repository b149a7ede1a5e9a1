import FISim.Lib.BigEndian

/-!
Names that every part of the simulator shares: packets as the bytes that the
simulator's `Packet` would hold, the field readers and writers of
`Buffer::Iterator`, and the typedefs and macros of `cybertwin-common.h`.

A computation that reads past the end of a packet, fails an assertion or hangs
has no result (`none`).
-/

namespace FISim

open BigEndian

abbrev CybertwinId := UInt64
abbrev MpConnId := UInt64
abbrev MpConnKey := UInt32
abbrev MpPathId := UInt32
abbrev QueryId := UInt32
abbrev MpDataSeqNum := UInt64

abbrev CybertwinInterface := UInt32 × UInt16
abbrev CybertwinInterfaceList := List CybertwinInterface

abbrev Packet := List UInt8

def getSize (packet : Packet) : UInt32 := UInt32.ofNat packet.length

theorem getSize_toNat {packet : Packet} (short : packet.length < 2 ^ 32) :
    (getSize packet).toNat = packet.length := by
  rw [getSize, UInt32.toNat_ofNat']
  exact Nat.mod_eq_of_lt short

theorem toNat_ofInt (size : ℕ) : (UInt64.ofInt size).toNat = size % 2 ^ 64 := by
  unfold UInt64.ofInt
  rw [UInt64.toNat_ofNat']
  omega

theorem toUInt64_toInt64 (value : Int32) :
    (value.toInt64.toUInt64.toNat : ℤ) =
      if 0 ≤ value.toInt then value.toInt else value.toInt + 2 ^ 64 := by
  have signed : value.toInt = (value.toInt64.toUInt64.toNat : ℤ).bmod (2 ^ 64) := by
    rw [← Int32.toInt_toInt64]
    exact BitVec.toInt_eq_toNat_bmod _
  have small : value.toInt64.toUInt64.toNat < 2 ^ 64 := value.toInt64.toUInt64.toNat_lt
  rw [Int.bmod_def] at signed
  split at signed <;> split <;> omega

theorem toUInt64_toInt32 (value : UInt32) :
    value.toInt32.toInt64.toUInt64.toNat =
      if value.toNat < 2 ^ 31 then value.toNat else value.toNat + (2 ^ 64 - 2 ^ 32) := by
  have signed : value.toInt32.toInt = (value.toNat : ℤ).bmod (2 ^ 32) :=
    BitVec.toInt_eq_toNat_bmod _
  have extended := toUInt64_toInt64 value.toInt32
  have small := value.toNat_lt
  rw [Int.bmod_def] at signed
  split at signed <;> split at extended <;> split <;> omega

def spKeysToConnId (key1 key2 : MpConnKey) : MpConnId := (key1.toUInt64 <<< 32) + key2.toUInt64

theorem spKeysToConnId_toNat (key1 key2 : MpConnKey) :
    (spKeysToConnId key1 key2).toNat = key1.toNat * 2 ^ 32 + key2.toNat := by
  have first := key1.toNat_lt
  have second := key2.toNat_lt
  simp only [spKeysToConnId, UInt64.toNat_add, UInt64.toNat_shiftLeft, UInt32.toNat_toUInt64,
    UInt64.reduceToNat, Nat.reduceMod, Nat.shiftLeft_eq]
  omega

theorem spKeysToConnId_inj {key1 key2 other1 other2 : MpConnKey} :
    spKeysToConnId key1 key2 = spKeysToConnId other1 other2 ↔ key1 = other1 ∧ key2 = other2 := by
  constructor
  · intro same
    have spelled := congrArg UInt64.toNat same
    have second := key2.toNat_lt
    have otherSecond := other2.toNat_lt
    rw [spKeysToConnId_toNat, spKeysToConnId_toNat] at spelled
    exact ⟨UInt32.toNat_inj.mp (by omega), UInt32.toNat_inj.mp (by omega)⟩
  · rintro ⟨rfl, rfl⟩
    rfl

theorem spKeysToConnId_ne_zero {key1 key2 : MpConnKey} (nonzero : key1 ≠ 0) :
    spKeysToConnId key1 key2 ≠ 0 := by
  intro zero
  have spelled := congrArg UInt64.toNat zero
  rw [spKeysToConnId_toNat] at spelled
  refine nonzero (UInt32.toNat_inj.mp ?_)
  simp only [UInt64.toNat_zero, UInt32.toNat_zero] at spelled ⊢
  omega

def writeU8 (value : UInt8) : List UInt8 := toBytes 1 value.toNat
def writeHtonU16 (value : UInt16) : List UInt8 := toBytes 2 value.toNat
def writeHtonU32 (value : UInt32) : List UInt8 := toBytes 4 value.toNat
def writeHtonU64 (value : UInt64) : List UInt8 := toBytes 8 value.toNat

def readU8 : Reader UInt8 := UInt8.ofNat <$> readNat 1
def readNtohU16 : Reader UInt16 := UInt16.ofNat <$> readNat 2
def readNtohU32 : Reader UInt32 := UInt32.ofNat <$> readNat 4
def readNtohU64 : Reader UInt64 := UInt64.ofNat <$> readNat 8

@[simp] theorem writeU8_length (value : UInt8) : (writeU8 value).length = 1 :=
  toBytes_length 1 value.toNat

@[simp] theorem writeHtonU16_length (value : UInt16) : (writeHtonU16 value).length = 2 :=
  toBytes_length 2 value.toNat

@[simp] theorem writeHtonU32_length (value : UInt32) : (writeHtonU32 value).length = 4 :=
  toBytes_length 4 value.toNat

@[simp] theorem writeHtonU64_length (value : UInt64) : (writeHtonU64 value).length = 8 :=
  toBytes_length 8 value.toNat

theorem reads_readU8 (value : UInt8) : Reads readU8 (writeU8 value) value := by
  have reads := (reads_readNat 1 value.toNat_lt).map UInt8.ofNat
  rwa [UInt8.ofNat_toNat] at reads

theorem reads_readNtohU16 (value : UInt16) : Reads readNtohU16 (writeHtonU16 value) value := by
  have reads := (reads_readNat 2 value.toNat_lt).map UInt16.ofNat
  rwa [UInt16.ofNat_toNat] at reads

theorem reads_readNtohU32 (value : UInt32) : Reads readNtohU32 (writeHtonU32 value) value := by
  have reads := (reads_readNat 4 value.toNat_lt).map UInt32.ofNat
  rwa [UInt32.ofNat_toNat] at reads

theorem reads_readNtohU64 (value : UInt64) : Reads readNtohU64 (writeHtonU64 value) value := by
  have reads := (reads_readNat 8 value.toNat_lt).map UInt64.ofNat
  rwa [UInt64.ofNat_toNat] at reads

theorem spells_readU8 : Spells [] readU8 writeU8 :=
  spells_word fun _ fits => (UInt8.toNat_ofNat').trans (Nat.mod_eq_of_lt fits)

theorem spells_readNtohU16 : Spells [] readNtohU16 writeHtonU16 :=
  spells_word fun _ fits => (UInt16.toNat_ofNat').trans (Nat.mod_eq_of_lt fits)

theorem spells_readNtohU32 : Spells [] readNtohU32 writeHtonU32 :=
  spells_word fun _ fits => (UInt32.toNat_ofNat').trans (Nat.mod_eq_of_lt fits)

theorem spells_readNtohU64 : Spells [] readNtohU64 writeHtonU64 :=
  spells_word fun _ fits => (UInt64.toNat_ofNat').trans (Nat.mod_eq_of_lt fits)

theorem takes_readU8 : Takes readU8 1 := (takes_readNat 1).map UInt8.ofNat
theorem takes_readNtohU16 : Takes readNtohU16 2 := (takes_readNat 2).map UInt16.ofNat
theorem takes_readNtohU32 : Takes readNtohU32 4 := (takes_readNat 4).map UInt32.ofNat
theorem takes_readNtohU64 : Takes readNtohU64 8 := (takes_readNat 8).map UInt64.ofNat

end FISim
