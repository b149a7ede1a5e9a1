import FISim.Common

/-!
The header of ARP requests and replies.  The hardware addresses in it have the length
that it tells.
-/

namespace FISim.Arp

open BigEndian

abbrev Ipv4Address := UInt32

/-- The bytes of a hardware address. -/
abbrev Address := List UInt8

structure ArpHeader where
  type : UInt16
  macSource : Address
  macDest : Address
  ipv4Source : Ipv4Address
  ipv4Dest : Ipv4Address
  deriving DecidableEq

namespace ArpHeader

def typeRequest : UInt16 := 1
def typeReply : UInt16 := 2

def setRequest (sourceHardwareAddress : Address) (sourceProtocolAddress : Ipv4Address)
    (destinationHardwareAddress : Address) (destinationProtocolAddress : Ipv4Address) :
    ArpHeader where
  type := typeRequest
  macSource := sourceHardwareAddress
  macDest := destinationHardwareAddress
  ipv4Source := sourceProtocolAddress
  ipv4Dest := destinationProtocolAddress

def setReply (sourceHardwareAddress : Address) (sourceProtocolAddress : Ipv4Address)
    (destinationHardwareAddress : Address) (destinationProtocolAddress : Ipv4Address) :
    ArpHeader where
  type := typeReply
  macSource := sourceHardwareAddress
  macDest := destinationHardwareAddress
  ipv4Source := sourceProtocolAddress
  ipv4Dest := destinationProtocolAddress

variable (header : ArpHeader)

def isRequest : Bool := header.type = typeRequest
def isReply : Bool := header.type = typeReply

/-- What `GetSerializedSize` and `Serialize` assert. -/
def Sized : Prop :=
  (header.macSource.length = 6 ∨ header.macSource.length = 8 ∨ header.macSource.length = 1) ∧
    header.macSource.length = header.macDest.length

instance : Decidable header.Sized := inferInstanceAs (Decidable (_ ∧ _))

def serialize : Packet :=
  writeHtonU16 0x0001 ++ (writeHtonU16 0x0800 ++
    (writeU8 (UInt8.ofNat header.macSource.length) ++ (writeU8 4 ++ (writeHtonU16 header.type ++
      (header.macSource ++ (writeHtonU32 header.ipv4Source ++
        (header.macDest ++ writeHtonU32 header.ipv4Dest)))))))

/-- `Address::MAX_SIZE`. -/
def maxSize : ℕ := 20

def readFrom (length : UInt8) : Reader Address :=
  if length.toNat ≤ maxSize then readBytes length.toNat else fun _ => none

/-- Nothing is found where `Deserialize` returns 0. -/
def deserialize : Reader (Option ArpHeader) := do
  let _ ← readBytes 2
  let protocolType ← readNtohU16
  let hardwareAddressLen ← readU8
  let protocolAddressLen ← readU8
  if protocolType ≠ 0x800 ∨ protocolAddressLen ≠ 4 then return none
  else
    let type ← readNtohU16
    let macSource ← readFrom hardwareAddressLen
    let ipv4Source ← readNtohU32
    let macDest ← readFrom hardwareAddressLen
    let ipv4Dest ← readNtohU32
    let header : ArpHeader := { type, macSource, macDest, ipv4Source, ipv4Dest }
    if header.Sized then return some header else fun _ => none

variable {header}

theorem reads_readFrom {address : Address} (short : address.length ≤ maxSize) :
    Reads (readFrom (UInt8.ofNat address.length)) address address := by
  have length : (UInt8.ofNat address.length).toNat = address.length := by
    rw [UInt8.toNat_ofNat']
    exact Nat.mod_eq_of_lt (lt_of_le_of_lt short (by decide))
  rw [readFrom, length, if_pos short]
  exact reads_readBytes rfl

theorem reads (sized : header.Sized) : Reads deserialize header.serialize (some header) := by
  have short : header.macSource.length ≤ maxSize := by
    rcases sized.1 with six | eight | one
    · rw [six]
      decide
    · rw [eight]
      decide
    · rw [one]
      decide
  have shortDest : header.macDest.length ≤ maxSize := sized.2 ▸ short
  have dest := reads_readFrom shortDest
  rw [← sized.2] at dest
  refine (reads_readBytes (writeHtonU16_length _)).bind ((reads_readNtohU16 _).bind
    ((reads_readU8 _).bind ((reads_readU8 _).bind ?_)))
  rw [if_neg (by decide)]
  refine (reads_readNtohU16 _).bind ((reads_readFrom short).bind ((reads_readNtohU32 _).bind
    (dest.bind ?_)))
  rw [← List.append_nil (writeHtonU32 header.ipv4Dest)]
  refine (reads_readNtohU32 _).bind ?_
  rw [if_pos sized]
  exact Reads.pure _

end ArpHeader

end FISim.Arp
