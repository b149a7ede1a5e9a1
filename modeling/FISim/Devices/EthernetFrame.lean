import FISim.Lib.TableRemainder
import FISim.PacketTags.TagCodecs

/-!
Ethernet frames: how a device wraps a packet for the link and unwraps what it
receives.  A frame that was altered in up to four consecutive bytes is not accepted.
-/

namespace FISim.Devices

open BigEndian TagBuffer TableRemainder

def crc32table : List UInt32 := [
  0x00000000, 0x77073096, 0xee0e612c, 0x990951ba, 0x076dc419, 0x706af48f, 0xe963a535, 0x9e6495a3,
  0x0edb8832, 0x79dcb8a4, 0xe0d5e91e, 0x97d2d988, 0x09b64c2b, 0x7eb17cbd, 0xe7b82d07, 0x90bf1d91,
  0x1db71064, 0x6ab020f2, 0xf3b97148, 0x84be41de, 0x1adad47d, 0x6ddde4eb, 0xf4d4b551, 0x83d385c7,
  0x136c9856, 0x646ba8c0, 0xfd62f97a, 0x8a65c9ec, 0x14015c4f, 0x63066cd9, 0xfa0f3d63, 0x8d080df5,
  0x3b6e20c8, 0x4c69105e, 0xd56041e4, 0xa2677172, 0x3c03e4d1, 0x4b04d447, 0xd20d85fd, 0xa50ab56b,
  0x35b5a8fa, 0x42b2986c, 0xdbbbc9d6, 0xacbcf940, 0x32d86ce3, 0x45df5c75, 0xdcd60dcf, 0xabd13d59,
  0x26d930ac, 0x51de003a, 0xc8d75180, 0xbfd06116, 0x21b4f4b5, 0x56b3c423, 0xcfba9599, 0xb8bda50f,
  0x2802b89e, 0x5f058808, 0xc60cd9b2, 0xb10be924, 0x2f6f7c87, 0x58684c11, 0xc1611dab, 0xb6662d3d,
  0x76dc4190, 0x01db7106, 0x98d220bc, 0xefd5102a, 0x71b18589, 0x06b6b51f, 0x9fbfe4a5, 0xe8b8d433,
  0x7807c9a2, 0x0f00f934, 0x9609a88e, 0xe10e9818, 0x7f6a0dbb, 0x086d3d2d, 0x91646c97, 0xe6635c01,
  0x6b6b51f4, 0x1c6c6162, 0x856530d8, 0xf262004e, 0x6c0695ed, 0x1b01a57b, 0x8208f4c1, 0xf50fc457,
  0x65b0d9c6, 0x12b7e950, 0x8bbeb8ea, 0xfcb9887c, 0x62dd1ddf, 0x15da2d49, 0x8cd37cf3, 0xfbd44c65,
  0x4db26158, 0x3ab551ce, 0xa3bc0074, 0xd4bb30e2, 0x4adfa541, 0x3dd895d7, 0xa4d1c46d, 0xd3d6f4fb,
  0x4369e96a, 0x346ed9fc, 0xad678846, 0xda60b8d0, 0x44042d73, 0x33031de5, 0xaa0a4c5f, 0xdd0d7cc9,
  0x5005713c, 0x270241aa, 0xbe0b1010, 0xc90c2086, 0x5768b525, 0x206f85b3, 0xb966d409, 0xce61e49f,
  0x5edef90e, 0x29d9c998, 0xb0d09822, 0xc7d7a8b4, 0x59b33d17, 0x2eb40d81, 0xb7bd5c3b, 0xc0ba6cad,
  0xedb88320, 0x9abfb3b6, 0x03b6e20c, 0x74b1d29a, 0xead54739, 0x9dd277af, 0x04db2615, 0x73dc1683,
  0xe3630b12, 0x94643b84, 0x0d6d6a3e, 0x7a6a5aa8, 0xe40ecf0b, 0x9309ff9d, 0x0a00ae27, 0x7d079eb1,
  0xf00f9344, 0x8708a3d2, 0x1e01f268, 0x6906c2fe, 0xf762575d, 0x806567cb, 0x196c3671, 0x6e6b06e7,
  0xfed41b76, 0x89d32be0, 0x10da7a5a, 0x67dd4acc, 0xf9b9df6f, 0x8ebeeff9, 0x17b7be43, 0x60b08ed5,
  0xd6d6a3e8, 0xa1d1937e, 0x38d8c2c4, 0x4fdff252, 0xd1bb67f1, 0xa6bc5767, 0x3fb506dd, 0x48b2364b,
  0xd80d2bda, 0xaf0a1b4c, 0x36034af6, 0x41047a60, 0xdf60efc3, 0xa867df55, 0x316e8eef, 0x4669be79,
  0xcb61b38c, 0xbc66831a, 0x256fd2a0, 0x5268e236, 0xcc0c7795, 0xbb0b4703, 0x220216b9, 0x5505262f,
  0xc5ba3bbe, 0xb2bd0b28, 0x2bb45a92, 0x5cb36a04, 0xc2d7ffa7, 0xb5d0cf31, 0x2cd99e8b, 0x5bdeae1d,
  0x9b64c2b0, 0xec63f226, 0x756aa39c, 0x026d930a, 0x9c0906a9, 0xeb0e363f, 0x72076785, 0x05005713,
  0x95bf4a82, 0xe2b87a14, 0x7bb12bae, 0x0cb61b38, 0x92d28e9b, 0xe5d5be0d, 0x7cdcefb7, 0x0bdbdf21,
  0x86d3d2d4, 0xf1d4e242, 0x68ddb3f8, 0x1fda836e, 0x81be16cd, 0xf6b9265b, 0x6fb077e1, 0x18b74777,
  0x88085ae6, 0xff0f6a70, 0x66063bca, 0x11010b5c, 0x8f659eff, 0xf862ae69, 0x616bffd3, 0x166ccf45,
  0xa00ae278, 0xd70dd2ee, 0x4e048354, 0x3903b3c2, 0xa7672661, 0xd06016f7, 0x4969474d, 0x3e6e77db,
  0xaed16a4a, 0xd9d65adc, 0x40df0b66, 0x37d83bf0, 0xa9bcae53, 0xdebb9ec5, 0x47b2cf7f, 0x30b5ffe9,
  0xbdbdf21c, 0xcabac28a, 0x53b39330, 0x24b4a3a6, 0xbad03605, 0xcdd70693, 0x54de5729, 0x23d967bf,
  0xb3667a2e, 0xc4614ab8, 0x5d681b02, 0x2a6f2b94, 0xb40bbe37, 0xc30c8ea1, 0x5a05df1b, 0x2d02ef8d]

def crc32Entry (index : UInt8) : UInt32 := crc32table.getD index.toNat 0

def crc32Calculate (data : Packet) : UInt32 := ~~~ remainder crc32Entry 0xffffffff data

theorem crc32Entry_distinct : Distinct crc32Entry :=
  distinct_of_marks (by decide +kernel) (by decide +kernel)

structure Mac48Address where
  bytes : List UInt8
  six : bytes.length = 6
  deriving DecidableEq

namespace Mac48Address

def read : Reader Mac48Address := fun bytes =>
  if long : 6 ≤ bytes.length then some (⟨bytes.take 6, by simp [long]⟩, bytes.drop 6) else none

theorem reads_read (address : Mac48Address) : Reads read address.bytes address := by
  intro rest
  have long : 6 ≤ (address.bytes ++ rest).length := by
    rw [List.length_append, address.six]
    exact Nat.le_add_right _ _
  have first : (address.bytes ++ rest).take 6 = address.bytes := List.take_left' address.six
  have others : (address.bytes ++ rest).drop 6 = rest := List.drop_left' address.six
  rw [read, dif_pos long]
  simp only [first, others]

end Mac48Address

structure EthernetHeader where
  source : Mac48Address
  destination : Mac48Address
  lengthType : UInt16
  deriving DecidableEq

/-- Without a preamble. -/
def EthernetHeader.serialize (header : EthernetHeader) : Packet :=
  header.destination.bytes ++ (header.source.bytes ++ writeHtonU16 header.lengthType)

def EthernetHeader.deserialize : Reader EthernetHeader := do
  let destination ← Mac48Address.read
  let source ← Mac48Address.read
  let lengthType ← readNtohU16
  return { source, destination, lengthType }

theorem EthernetHeader.reads (header : EthernetHeader) :
    Reads deserialize header.serialize header :=
  (Mac48Address.reads_read _).bind ((Mac48Address.reads_read _).bind
    ((reads_readNtohU16 _).bind_pure _))

@[simp] theorem EthernetHeader.serialize_length (header : EthernetHeader) :
    header.serialize.length = 14 := by
  simp [serialize, header.source.six, header.destination.six]

structure LlcSnapHeader where
  etherType : UInt16

def LlcSnapHeader.serialize (header : LlcSnapHeader) : Packet :=
  [0xaa, 0xaa, 0x03, 0, 0, 0] ++ writeHtonU16 header.etherType

def LlcSnapHeader.deserialize : Reader LlcSnapHeader := do
  let _ ← readBytes 6
  let etherType ← readNtohU16
  return { etherType }

theorem LlcSnapHeader.reads (header : LlcSnapHeader) :
    Reads deserialize header.serialize header := by
  have six : Reads (readBytes 6) [0xaa, 0xaa, 0x03, 0, 0, 0] [0xaa, 0xaa, 0x03, 0, 0, 0] :=
    reads_readBytes rfl
  exact six.bind ((reads_readNtohU16 _).bind_pure _)

@[simp] theorem LlcSnapHeader.serialize_length (header : LlcSnapHeader) :
    header.serialize.length = 8 := by simp [serialize]

inductive EncapsulationMode
  | dix
  | llc
  | illegal
  deriving DecidableEq

def padTo46 (packet : Packet) : Packet :=
  if packet.length < 46 then packet ++ List.replicate (46 - packet.length) 0 else packet

/-- What `AddHeader` does; an unknown encapsulation mode is fatal. -/
def addHeader (encapMode : EncapsulationMode) (mtu : UInt16) (checksumEnabled : Bool)
    (packet : Packet) (source destination : Mac48Address) (protocolNumber : UInt16) :
    Option Packet := do
  let (lengthType, payload) ← match encapMode with
    | .dix => some (protocolNumber, padTo46 packet)
    | .llc =>
        let packet := LlcSnapHeader.serialize ⟨protocolNumber⟩ ++ packet
        if (padTo46 packet).length ≤ mtu.toNat then
          some (UInt16.ofNat packet.length, padTo46 packet)
        else none
    | .illegal => none
  let framed := EthernetHeader.serialize { source, destination, lengthType } ++ payload
  let fcs := if checksumEnabled then crc32Calculate framed else 0
  return framed ++ writeU32 fcs

structure Arrival where
  packet : Packet
  protocol : UInt16
  source : Mac48Address
  destination : Mac48Address
  deriving DecidableEq

/-- What the headers tell; there is no result where an assertion fails. -/
def decapsulate (body : Packet) : Option Arrival := do
  let (header, packet) ← EthernetHeader.deserialize body
  if header.lengthType ≤ 1500 then
    if packet.length < header.lengthType.toNat then none
    else if 46 < packet.length - header.lengthType.toNat then none
    else
      let (llc, packet) ← LlcSnapHeader.deserialize (packet.take header.lengthType.toNat)
      return ⟨packet, llc.etherType, header.source, header.destination⟩
  else return ⟨packet, header.lengthType, header.source, header.destination⟩

/-- What `Receive` finds in a frame: nothing where the checksum is wrong. -/
def unwrap (checksumEnabled : Bool) (frame : Packet) : Option (Option Arrival) :=
  if frame.length < 4 then none
  else do
    let body := frame.take (frame.length - 4)
    let (fcs, _) ← readU32 (frame.drop (frame.length - 4))
    if checksumEnabled ∧ fcs ≠ crc32Calculate body then return none
    else (decapsulate body).map some

section Checksum

variable {body tail : Packet}

theorem word_writeU32 (value : UInt32) : word (writeU32 value) = value := by
  have bound := value.toNat_lt
  apply UInt32.toNat_inj.mp
  simp only [writeU32, writeHtonU32, toBytes, List.reverse_cons, List.reverse_nil, List.nil_append,
    List.cons_append]
  rw [word_toNat _ (word_small (by simp)), word_toNat _ (word_small (by simp)),
    word_toNat _ (word_small (by simp)), word_toNat _ (word_small (by simp))]
  simp only [word, UInt8.toNat_ofNat', Nat.reducePow, UInt32.toNat_zero]
  omega

theorem readU32_eq (four : tail.length = 4) : readU32 tail = some (word tail, []) := by
  have spelled : writeU32 (word tail) = tail :=
    word_inj (by rw [writeU32_length, four]) (by rw [writeU32_length]) (word_writeU32 _)
  have read := reads_readU32 (word tail) []
  rwa [List.append_nil, spelled] at read

/-- The checksum is right where the remainder of the whole frame is the one of a right frame. -/
theorem fcs_iff (four : tail.length = 4) : word tail = crc32Calculate body ↔
    remainder crc32Entry 0xffffffff (body ++ tail) =
      remainder crc32Entry 0xffffffff (List.replicate 4 0) := by
  have absorbed : remainder crc32Entry 0xffffffff (body ++ tail) =
      remainder crc32Entry (remainder crc32Entry 0xffffffff body ^^^ word tail)
        (List.replicate 4 0) := by
    rw [remainder, List.foldl_append, ← four]
    exact remainder_word _ (Nat.le_of_eq four)
  rw [absorbed, crc32Calculate]
  generalize remainder crc32Entry 0xffffffff body = left
  constructor
  · intro complement
    rw [complement, UInt32.xor_not, UInt32.xor_self]
    rfl
  · intro same
    have ones := remainder_inj crc32Entry_distinct same
    have flipped := congrArg (left ^^^ ·) ones
    simp only [← UInt32.xor_assoc, UInt32.xor_self, UInt32.zero_xor] at flipped
    exact flipped.trans UInt32.xor_neg_one

theorem unwrap_append (checksumEnabled : Bool) (four : tail.length = 4) :
    unwrap checksumEnabled (body ++ tail) =
      if checksumEnabled ∧ word tail ≠ crc32Calculate body then some none
      else (decapsulate body).map some := by
  have length : (body ++ tail).length - 4 = body.length := by
    rw [List.length_append, four, Nat.add_sub_cancel]
  rw [unwrap, if_neg (by rw [List.length_append, four]; omega)]
  simp only [length, List.take_left, List.drop_left, readU32_eq four, Option.bind_eq_bind,
    Option.bind_some]
  rfl

/-- A frame with the right checksum that is altered in a few consecutive bytes is dropped. -/
theorem unwrap_altered {frame before one other after : Packet} (long : 4 ≤ frame.length)
    (sealed : remainder crc32Entry 0xffffffff frame =
      remainder crc32Entry 0xffffffff (List.replicate 4 0))
    (parts : frame = before ++ one ++ after) (lengths : one.length = other.length)
    (short : one.length ≤ 4) (different : one ≠ other) :
    unwrap true (before ++ other ++ after) = some none := by
  have sizes : (before ++ other ++ after).length = frame.length := by
    rw [parts, List.length_append, List.length_append, List.length_append, List.length_append,
      lengths]
  generalize altered : before ++ other ++ after = received at sizes
  have four : (received.drop (received.length - 4)).length = 4 := by
    rw [List.length_drop]
    omega
  have wrong : remainder crc32Entry 0xffffffff received ≠
      remainder crc32Entry 0xffffffff (List.replicate 4 0) := by
    rw [← sealed, parts, ← altered]
    exact (remainder_ne crc32Entry_distinct _ lengths short different).symm
  rw [← List.take_append_drop (received.length - 4) received] at wrong ⊢
  rw [unwrap_append true four]
  exact if_pos ⟨rfl, fun right => wrong ((fcs_iff four).mp right)⟩

end Checksum

/-- What the caller of `Send` provides for: the type of a frame is no length, and with an LLC header
the packet is not longer than a length may be and than the device allows. -/
def Admissible (encapMode : EncapsulationMode) (mtu : UInt16) (packet : Packet)
    (protocolNumber : UInt16) : Prop :=
  match encapMode with
  | .dix => 1500 < protocolNumber
  | .llc => packet.length + 8 ≤ 1500 ∧ max 46 (packet.length + 8) ≤ mtu.toNat
  | .illegal => False

instance (encapMode : EncapsulationMode) (mtu : UInt16) (packet : Packet)
    (protocolNumber : UInt16) : Decidable (Admissible encapMode mtu packet protocolNumber) := by
  unfold Admissible
  split <;> infer_instance

/-- Only a length in the frame tells padding from the packet. -/
def arriving (encapMode : EncapsulationMode) (packet : Packet) : Packet :=
  match encapMode with
  | .llc => packet
  | .dix | .illegal => padTo46 packet

theorem padTo46_length (packet : Packet) : (padTo46 packet).length = max 46 packet.length := by
  rw [padTo46]
  split
  · rw [List.length_append, List.length_replicate]
    omega
  · omega

theorem padTo46_take (packet : Packet) : (padTo46 packet).take packet.length = packet := by
  rw [padTo46]
  split
  · exact List.take_left
  · exact List.take_length

theorem decapsulate_type (source destination : Mac48Address) {lengthType : UInt16}
    (payload : Packet) (isType : 1500 < lengthType) :
    decapsulate (EthernetHeader.serialize { source, destination, lengthType } ++ payload) =
      some ⟨payload, lengthType, source, destination⟩ := by
  rw [decapsulate, EthernetHeader.reads, Option.bind_eq_bind, Option.bind_some]
  exact if_neg (UInt16.not_le.mpr isType)

theorem decapsulate_length (source destination : Mac48Address) (protocolNumber : UInt16)
    {packet : Packet} (short : packet.length + 8 ≤ 1500) :
    decapsulate (EthernetHeader.serialize
      { source, destination, lengthType := UInt16.ofNat (packet.length + 8) } ++
        padTo46 (LlcSnapHeader.serialize ⟨protocolNumber⟩ ++ packet)) =
      some ⟨packet, protocolNumber, source, destination⟩ := by
  have size : (LlcSnapHeader.serialize ⟨protocolNumber⟩ ++ packet).length = packet.length + 8 := by
    rw [List.length_append, LlcSnapHeader.serialize_length, Nat.add_comm]
  have toNat : (UInt16.ofNat (packet.length + 8)).toNat = packet.length + 8 := by
    rw [UInt16.toNat_ofNat']
    exact Nat.mod_eq_of_lt (lt_of_le_of_lt short (by decide))
  have isLength : UInt16.ofNat (packet.length + 8) ≤ 1500 := by
    rw [UInt16.le_iff_toNat_le, toNat]
    exact short
  have padded := padTo46_length (LlcSnapHeader.serialize ⟨protocolNumber⟩ ++ packet)
  have taken := padTo46_take (LlcSnapHeader.serialize ⟨protocolNumber⟩ ++ packet)
  rw [size] at padded taken
  rw [decapsulate, EthernetHeader.reads, Option.bind_eq_bind, Option.bind_some]
  dsimp only
  rw [if_pos isLength, toNat, padded, if_neg (by omega), if_neg (by omega), taken,
    LlcSnapHeader.reads, Option.bind_eq_bind, Option.bind_some]
  rfl

theorem addHeader_eq {encapMode : EncapsulationMode} {mtu : UInt16} (checksumEnabled : Bool)
    {packet : Packet} (source destination : Mac48Address) {protocolNumber : UInt16}
    (admissible : Admissible encapMode mtu packet protocolNumber) :
    ∃ body, addHeader encapMode mtu checksumEnabled packet source destination protocolNumber =
        some (body ++ writeU32 (if checksumEnabled then crc32Calculate body else 0)) ∧
      decapsulate body =
        some ⟨arriving encapMode packet, protocolNumber, source, destination⟩ := by
  cases encapMode with
  | dix => exact ⟨_, rfl, decapsulate_type source destination _ admissible⟩
  | llc =>
      have size : (LlcSnapHeader.serialize ⟨protocolNumber⟩ ++ packet).length =
          packet.length + 8 := by
        rw [List.length_append, LlcSnapHeader.serialize_length, Nat.add_comm]
      have allowed : (padTo46 (LlcSnapHeader.serialize ⟨protocolNumber⟩ ++ packet)).length ≤
          mtu.toNat := by
        rw [padTo46_length, size]
        exact admissible.2
      refine ⟨_, ?_, decapsulate_length source destination protocolNumber admissible.1⟩
      rw [addHeader]
      dsimp only
      rw [if_pos allowed, size]
      rfl
  | illegal => exact admissible.elim

end FISim.Devices
