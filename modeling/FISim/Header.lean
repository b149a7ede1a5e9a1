import FISim.Common

/-!
The headers of `cybertwin-header.h` that the multipath transport, the name
resolution service and the control plane put on packets.
-/

namespace FISim

open BigEndian

structure MultipathHeader where
  pathId : MpPathId := 0
  cuid : CybertwinId := 0
  senderKey : MpConnKey := 0
  recverKey : MpConnKey := 0
  connId : MpConnId := 0
  deriving DecidableEq, Repr

def MultipathHeader.getSerializedSize (_header : MultipathHeader) : ℕ := 4 + 8 + 4 + 4 + 8

@[simp] theorem MultipathHeader.getSerializedSize_eq (header : MultipathHeader) :
    header.getSerializedSize = 28 := rfl

def MultipathHeader.serialize (header : MultipathHeader) : Packet :=
  writeHtonU32 header.pathId ++ (writeHtonU64 header.cuid ++ (writeHtonU32 header.senderKey ++
    (writeHtonU32 header.recverKey ++ writeHtonU64 header.connId)))

def MultipathHeader.deserialize : Reader MultipathHeader := do
  let pathId ← readNtohU32
  let cuid ← readNtohU64
  let senderKey ← readNtohU32
  let recverKey ← readNtohU32
  let connId ← readNtohU64
  return { pathId, cuid, senderKey, recverKey, connId }

theorem MultipathHeader.reads (header : MultipathHeader) :
    Reads MultipathHeader.deserialize header.serialize header := by
  exact (reads_readNtohU32 _).bind ((reads_readNtohU64 _).bind
    ((reads_readNtohU32 _).bind ((reads_readNtohU32 _).bind ((reads_readNtohU64 _).bind_pure _))))

theorem MultipathHeader.takes : Takes MultipathHeader.deserialize 28 :=
  takes_readNtohU32.bind fun _ => takes_readNtohU64.bind fun _ => takes_readNtohU32.bind fun _ =>
    takes_readNtohU32.bind fun _ => takes_readNtohU64.bind fun _ => Takes.pure _

structure MultipathHeaderDSN where
  cuid : CybertwinId := 0
  dataSeqNum : MpDataSeqNum := 0
  dataLen : UInt32 := 0
  deriving DecidableEq, Repr

def MultipathHeaderDSN.getSerializedSize (_header : MultipathHeaderDSN) : ℕ := 8 + 8 + 4

def MultipathHeaderDSN.serialize (header : MultipathHeaderDSN) : Packet :=
  writeHtonU64 header.cuid ++ (writeHtonU64 header.dataSeqNum ++ writeHtonU32 header.dataLen)

def MultipathHeaderDSN.deserialize : Reader MultipathHeaderDSN := do
  let cuid ← readNtohU64
  let dataSeqNum ← readNtohU64
  let dataLen ← readNtohU32
  return { cuid, dataSeqNum, dataLen }

theorem MultipathHeaderDSN.reads (header : MultipathHeaderDSN) :
    Reads MultipathHeaderDSN.deserialize header.serialize header := by
  exact (reads_readNtohU64 _).bind ((reads_readNtohU64 _).bind
    ((reads_readNtohU32 _).bind_pure _))

theorem MultipathHeaderDSN.takes : Takes MultipathHeaderDSN.deserialize 20 :=
  takes_readNtohU64.bind fun _ => takes_readNtohU64.bind fun _ => takes_readNtohU32.bind fun _ =>
    Takes.pure _

@[simp] theorem MultipathHeaderDSN.serialize_length (header : MultipathHeaderDSN) :
    header.serialize.length = 20 := by
  simp [serialize]

@[simp] theorem MultipathHeader.serialize_length (header : MultipathHeader) :
    header.serialize.length = 28 := by
  simp [serialize]

inductive CNRSMethod
  | query
  | insert
  | queryOk
  | queryFail
  | insertOk
  | insertFail
  | unknown (code : UInt8)
  deriving DecidableEq, Repr

def CNRSMethod.code : CNRSMethod → UInt8
  | query => 0
  | insert => 1
  | queryOk => 2
  | queryFail => 3
  | insertOk => 4
  | insertFail => 5
  | unknown code => code

def CNRSMethod.ofCode (code : UInt8) : CNRSMethod :=
  if code = 0 then query else if code = 1 then insert else if code = 2 then queryOk
  else if code = 3 then queryFail else if code = 4 then insertOk
  else if code = 5 then insertFail else unknown code

def CNRSMethod.carriesList (method : CNRSMethod) : Bool := method = insert ∨ method = queryOk

structure CNRSHeader where
  method : CNRSMethod := .query
  queryId : QueryId := 0
  cuid : CybertwinId := 0
  interfaceNum : UInt8 := 0
  interfaceList : CybertwinInterfaceList := []
  deriving DecidableEq, Repr

namespace CNRSHeader

def setInterfaceList (header : CNRSHeader) (interfaceList : CybertwinInterfaceList) :
    CNRSHeader :=
  { header with interfaceList, interfaceNum := UInt8.ofNat interfaceList.length }

def getSerializedSize (header : CNRSHeader) : ℕ :=
  1 + 4 + 8 + 1 + header.interfaceNum.toNat * (4 + 2)

def writeInterface (interface : CybertwinInterface) : Packet :=
  writeHtonU32 interface.1 ++ writeHtonU16 interface.2

def readInterface : Reader CybertwinInterface := do
  let address ← readNtohU32
  let port ← readNtohU16
  return (address, port)

theorem interfaces_length (interfaces : CybertwinInterfaceList) :
    (interfaces.flatMap writeInterface).length = interfaces.length * 6 := by
  induction interfaces with
  | nil => rfl
  | cons first rest ih =>
      simp only [List.flatMap_cons, List.length_append, ih, List.length_cons, writeInterface,
        writeHtonU32_length, writeHtonU16_length]
      omega

theorem reads_interface (interface : CybertwinInterface) :
    Reads readInterface (writeInterface interface) interface :=
  (reads_readNtohU32 interface.1).bind ((reads_readNtohU16 _).bind_pure _)

def serialize (header : CNRSHeader) : Packet :=
  writeU8 header.method.code ++ (writeHtonU32 header.queryId ++ (writeHtonU64 header.cuid ++
    (writeU8 header.interfaceNum ++
      if header.method.carriesList then header.interfaceList.flatMap writeInterface else [])))

def deserialize : Reader CNRSHeader := do
  let method ← CNRSMethod.ofCode <$> readU8
  let queryId ← readNtohU32
  let cuid ← readNtohU64
  let interfaceNum ← readU8
  let interfaceList ← readMany readInterface (if method.carriesList then interfaceNum.toNat else 0)
  return { method, queryId, cuid, interfaceNum, interfaceList }

-- What the receiver reads off a packet.  `AddHeader` makes room for the announced size, and
-- a write beyond it (a list whose length does not fit `m_interfaceNum`) fails the buffer's
-- assertion.  The padding of some packets comes after the header and is never read.
def transmit (header : CNRSHeader) : Option CNRSHeader := do
  if header.serialize.length ≤ header.getSerializedSize then
    let (received, _) ← deserialize header.serialize
    return received
  else none

structure WellFormed (header : CNRSHeader) : Prop where
  known : CNRSMethod.ofCode header.method.code = header.method
  number : header.interfaceNum = UInt8.ofNat header.interfaceList.length
  list : header.method.carriesList = false → header.interfaceList = []

theorem reads {header : CNRSHeader} (wellFormed : header.WellFormed)
    (fits : header.interfaceList.length ≤ 255) : Reads deserialize header.serialize header := by
  have number : header.interfaceNum.toNat = header.interfaceList.length := by
    rw [wellFormed.number, UInt8.toNat_ofNat']
    omega
  have method := (reads_readU8 header.method.code).map CNRSMethod.ofCode
  rw [wellFormed.known] at method
  refine method.bind ((reads_readNtohU32 _).bind ((reads_readNtohU64 _).bind
    ((reads_readU8 _).bind ?_)))
  cases carries : header.method.carriesList with
  | true =>
      have list := reads_readMany reads_interface header.interfaceList
      rw [← number] at list
      exact list.bind_pure _
  | false =>
      have list := reads_readMany reads_interface header.interfaceList
      rw [wellFormed.list carries] at list
      have whole := list.bind_pure fun interfaceList =>
        ({ header with interfaceList } : CNRSHeader)
      have same : ({ header with interfaceList := [] } : CNRSHeader) = header := by
        rw [← wellFormed.list carries]
      rw [same] at whole
      exact whole

theorem serialize_length {header : CNRSHeader} (wellFormed : header.WellFormed) :
    header.serialize.length = 14 + header.interfaceList.length * 6 := by
  cases carries : header.method.carriesList with
  | true =>
      simp only [serialize, carries, if_true, List.length_append, interfaces_length, writeU8_length,
        writeHtonU32_length, writeHtonU64_length]
      omega
  | false => simp [serialize, carries, wellFormed.list carries]

/-- A header reaches the receiver unchanged exactly when its list has at most 255 entries. -/
theorem transmit_eq {header : CNRSHeader} (wellFormed : header.WellFormed) :
    header.transmit = if header.interfaceList.length ≤ 255 then some header else none := by
  have size : header.getSerializedSize = 14 + header.interfaceList.length % 256 * 6 := by
    simp [getSerializedSize, wellFormed.number]
  by_cases fits : header.interfaceList.length ≤ 255
  · have found := header.reads wellFormed fits []
    rw [List.append_nil] at found
    have room : header.serialize.length ≤ header.getSerializedSize := by
      rw [serialize_length wellFormed, size]
      omega
    rw [transmit, if_pos room, found, if_pos fits]
    rfl
  · have longer : ¬ header.serialize.length ≤ header.getSerializedSize := by
      rw [serialize_length wellFormed, size]
      omega
    rw [transmit, if_neg longer, if_neg fits]

end CNRSHeader

inductive EndHostCommand
  | heartbeat
  | downloadRequest
  deriving DecidableEq, Repr

def EndHostCommand.code : EndHostCommand → UInt8
  | heartbeat => 0
  | downloadRequest => 1

structure EndHostHeader where
  command : UInt8 := EndHostCommand.heartbeat.code
  targetID : CybertwinId := 0
  deriving DecidableEq, Repr

namespace EndHostHeader

def getSerializedSize (_header : EndHostHeader) : ℕ := 1 + 8

def serialize (header : EndHostHeader) : Packet :=
  writeU8 header.command ++ writeHtonU64 header.targetID

def deserialize : Reader EndHostHeader := do
  let command ← readU8
  let targetID ← readNtohU64
  return { command, targetID }

theorem reads (header : EndHostHeader) : Reads deserialize header.serialize header :=
  (reads_readU8 _).bind ((reads_readNtohU64 _).bind_pure _)

theorem takes : Takes deserialize 9 :=
  takes_readU8.bind fun _ => takes_readNtohU64.bind fun _ => Takes.pure _

@[simp] theorem serialize_length (header : EndHostHeader) : header.serialize.length = 9 := by
  simp [serialize]

end EndHostHeader

-- `m_content_name` holds the bytes of the string.
structure CCNHeader where
  contentName : List UInt8 := []
  type : UInt8 := 0
  deriving DecidableEq, Repr

namespace CCNHeader

def nameLength : ℕ := 20

def interest : UInt8 := 0

def data : UInt8 := 1

def getSerializedSize (_header : CCNHeader) : ℕ := nameLength + 1

-- A name that is too long fails an assertion.
def serialize (header : CCNHeader) : Option Packet :=
  if header.contentName.length ≤ nameLength then
    some (header.contentName ++ List.replicate (nameLength - header.contentName.length) 0 ++
      writeU8 header.type)
  else none

def deserialize : Reader CCNHeader := do
  let contentName ← readBytes nameLength
  let type ← readU8
  return { contentName, type }

theorem reads {header : CCNHeader} {bytes : Packet} (written : header.serialize = some bytes) :
    Reads deserialize bytes { header with
      contentName := header.contentName ++
        List.replicate (nameLength - header.contentName.length) 0 } := by
  unfold serialize at written
  split at written
  · rename_i fits
    have size : (header.contentName ++
        List.replicate (nameLength - header.contentName.length) 0).length = nameLength := by
      rw [List.length_append, List.length_replicate]
      omega
    rw [← Option.some.inj written]
    exact (reads_readBytes size).bind ((reads_readU8 _).bind_pure _)
  · cases written

end CCNHeader

inductive CybertwinCommand
  | hostConnect
  | hostDisconnect
  | cybertwinConnectSuccess
  | cybertwinConnectError
  | cybertwinHeaderData
  | createStream
  | endHostStopStream
  | endHostStartStream
  | endHostRequestDownload
  deriving DecidableEq, Repr

def CybertwinCommand.code : CybertwinCommand → UInt8
  | hostConnect => 0
  | hostDisconnect => 1
  | cybertwinConnectSuccess => 2
  | cybertwinConnectError => 3
  | cybertwinHeaderData => 4
  | createStream => 5
  | endHostStopStream => 6
  | endHostStartStream => 7
  | endHostRequestDownload => 8

structure CybertwinHeader where
  command : UInt8 := 0
  cybertwin : CybertwinId := 0
  peer : CybertwinId := 0
  size : UInt32 := 0
  cybertwinPort : UInt16 := 0
  recvRate : UInt8 := 0
  deriving DecidableEq, Repr

namespace CybertwinHeader

def getSerializedSize (_header : CybertwinHeader) : ℕ := 1 + 8 + 8 + 4 + 2 + 1

def serialize (header : CybertwinHeader) : Packet :=
  writeU8 header.command ++ (writeHtonU64 header.cybertwin ++ (writeHtonU64 header.peer ++
    (writeHtonU32 header.size ++ (writeHtonU16 header.cybertwinPort ++ writeU8 header.recvRate))))

def deserialize : Reader CybertwinHeader := do
  let command ← readU8
  let cybertwin ← readNtohU64
  let peer ← readNtohU64
  let size ← readNtohU32
  let cybertwinPort ← readNtohU16
  let recvRate ← readU8
  return { command, cybertwin, peer, size, cybertwinPort, recvRate }

end CybertwinHeader

inductive CybertwinProxyCommand
  | registration
  | registrationAck
  | registrationError
  | destruction
  | destructionAck
  | destructionError
  | reconnect
  | reconnectAck
  | reconnectError
  deriving DecidableEq, Repr

def CybertwinProxyCommand.code : CybertwinProxyCommand → UInt8
  | registration => 100
  | registrationAck => 101
  | registrationError => 102
  | destruction => 103
  | destructionAck => 104
  | destructionError => 105
  | reconnect => 106
  | reconnectAck => 107
  | reconnectError => 108

-- `m_cname` holds the bytes of the string.
structure CybertwinManagerHeader where
  command : UInt8 := 0
  cname : List UInt8 := []
  cuid : UInt64 := 0
  port : UInt16 := 0
  deriving DecidableEq, Repr

namespace CybertwinManagerHeader

def getSerializedSize (header : CybertwinManagerHeader) : ℕ := 1 + 2 + header.cname.length + 8 + 2

def serialize (header : CybertwinManagerHeader) : Packet :=
  writeU8 header.command ++ (writeHtonU16 (UInt16.ofNat header.cname.length) ++ (header.cname ++
    (writeHtonU64 header.cuid ++ writeHtonU16 header.port)))

def deserialize : Reader CybertwinManagerHeader := do
  let command ← readU8
  let cnameLength ← readNtohU16
  let cname ← readBytes cnameLength.toNat
  let cuid ← readNtohU64
  let port ← readNtohU16
  return { command, cname, cuid, port }

theorem serialize_length (header : CybertwinManagerHeader) :
    header.serialize.length = header.getSerializedSize := by
  simp only [serialize, getSerializedSize, List.length_append, writeU8_length,
    writeHtonU16_length, writeHtonU64_length]
  omega

theorem reads {header : CybertwinManagerHeader} (fits : header.cname.length ≤ 65535) :
    Reads deserialize header.serialize header := by
  have size : header.cname.length = (UInt16.ofNat header.cname.length).toNat := by
    rw [UInt16.toNat_ofNat']
    omega
  exact (reads_readU8 _).bind ((reads_readNtohU16 _).bind ((reads_readBytes size).bind
    ((reads_readNtohU64 _).bind ((reads_readNtohU16 _).bind_pure _))))

theorem deserialize_spec {bytes rest : List UInt8} {header : CybertwinManagerHeader}
    (found : deserialize bytes = some (header, rest)) :
    header.cname.length ≤ 65535 ∧ bytes.length = header.getSerializedSize + rest.length := by
  obtain ⟨⟨command, second⟩, first, found⟩ := Option.bind_eq_some_iff.mp found
  obtain ⟨⟨cnameLength, third⟩, next, found⟩ := Option.bind_eq_some_iff.mp found
  obtain ⟨⟨cname, fourth⟩, name, found⟩ := Option.bind_eq_some_iff.mp found
  obtain ⟨⟨cuid, fifth⟩, id, found⟩ := Option.bind_eq_some_iff.mp found
  obtain ⟨⟨port, sixth⟩, last, found⟩ := Option.bind_eq_some_iff.mp found
  obtain ⟨rfl, rfl⟩ := Prod.mk.inj (Option.some.inj found)
  have length := readBytes_length name
  have small := cnameLength.toNat_lt
  have one := takes_readU8.rest first
  have two := takes_readNtohU16.rest next
  have three := (takes_readBytes cnameLength.toNat).rest name
  have four := takes_readNtohU64.rest id
  have five := takes_readNtohU16.rest last
  simp only [getSerializedSize]
  omega

end CybertwinManagerHeader

end FISim
