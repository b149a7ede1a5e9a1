import FISim.PacketTags.CybertwinTags

/-!
The codecs of the tags of `cybertwin-tag.cc` and of `cybertwin-packet-tags.cc`: a
tag is serialized into a buffer of the size it says it takes.
-/

namespace FISim

open BigEndian

namespace TagBuffer

def writeU32 (value : UInt32) : List UInt8 := (writeHtonU32 value).reverse

def readU32 : Reader UInt32 := readLe 4 readNtohU32

theorem reads_readU32 (value : UInt32) : Reads readU32 (writeU32 value) value :=
  reads_readLe (reads_readNtohU32 value) (toBytes_length 4 _)

@[simp] theorem writeBool_length (value : Bool) : (writeBool value).length = 1 := writeU8_length _

@[simp] theorem writeU16_length (value : UInt16) : (writeU16 value).length = 2 := by
  rw [writeU16, List.length_reverse, writeHtonU16_length]

@[simp] theorem writeU32_length (value : UInt32) : (writeU32 value).length = 4 := by
  rw [writeU32, List.length_reverse, writeHtonU32_length]

@[simp] theorem writeU64_length (value : UInt64) : (writeU64 value).length = 8 := by
  rw [writeU64, List.length_reverse, writeHtonU64_length]

end TagBuffer

open TagBuffer

/-- `GetSerializedSize`, `Serialize` and `Deserialize` of a class of tags. -/
structure TagCodec (Tag : Type) where
  getSerializedSize : Tag → ℕ
  serialize : Tag → List UInt8
  deserialize : Tag → Reader Tag

/-- The tag fills a buffer of its size exactly, and the fresh object becomes `got` and takes all of
what was written. -/
structure TagCodec.RoundTrips {Tag : Type} (codec : TagCodec Tag) (tag fresh got : Tag) : Prop where
  writes : ∀ buffer, buffer.length = codec.getSerializedSize tag →
    PacketTagList.writeOver buffer (codec.serialize tag) = some (codec.serialize tag)
  reads : Reads (codec.deserialize fresh) (codec.serialize tag) got
  consumes : codec.getSerializedSize got = (codec.serialize tag).length

theorem TagCodec.writes_iff {Tag : Type} (codec : TagCodec Tag) (tag : Tag) :
    (∀ buffer, buffer.length = codec.getSerializedSize tag →
      PacketTagList.writeOver buffer (codec.serialize tag) = some (codec.serialize tag)) ↔
        (codec.serialize tag).length = codec.getSerializedSize tag := by
  constructor
  · intro writes
    have written := writes (List.replicate (codec.getSerializedSize tag) 0) List.length_replicate
    rw [PacketTagList.writeOver, List.length_replicate] at written
    split at written
    · have lengths := congrArg List.length (Option.some.inj written)
      rw [List.length_append, List.length_drop, List.length_replicate] at lengths
      omega
    · contradiction
  · intro same buffer size
    rw [PacketTagList.writeOver, if_pos (by omega), List.drop_eq_nil_of_le (by omega),
      List.append_nil]

/-! The tags of `cybertwin-tag.cc`. -/

/-- The only member of a plain `CybertwinTag` is its cybertwin. -/
def CybertwinTag.codec : TagCodec CybertwinId where
  getSerializedSize _ := 8
  serialize cuid := writeU64 cuid
  deserialize _ := readU64

def CybertwinCreditTag.codec : TagCodec CybertwinCreditTag where
  getSerializedSize _ := 8 + 2 + 8
  serialize := CybertwinCreditTag.serialize
  deserialize _ := CybertwinCreditTag.deserialize

def CybertwinCertTag.codec : TagCodec CybertwinCertTag where
  getSerializedSize := CybertwinCertTag.getSerializedSize
  serialize := CybertwinCertTag.serialize
  deserialize := CybertwinCertTag.deserialize

structure MultipathTagConn where
  pathId : UInt32
  cuid : UInt64
  senderKey : UInt32
  recverKey : UInt32
  connId : UInt64
  deriving DecidableEq

namespace MultipathTagConn

def getSerializedSize (_tag : MultipathTagConn) : ℕ := 4 + 8 + 4 + 4 + 8

def serialize (tag : MultipathTagConn) : List UInt8 :=
  writeU32 tag.pathId ++ (writeU64 tag.cuid ++ (writeU32 tag.senderKey ++
    (writeU32 tag.recverKey ++ writeU64 tag.connId)))

def deserialize : Reader MultipathTagConn := do
  let pathId ← readU32
  let cuid ← readU64
  let senderKey ← readU32
  let recverKey ← readU32
  let connId ← readU64
  return { pathId, cuid, senderKey, recverKey, connId }

def codec : TagCodec MultipathTagConn where
  getSerializedSize := getSerializedSize
  serialize := serialize
  deserialize _ := deserialize

theorem reads (tag : MultipathTagConn) : Reads deserialize tag.serialize tag :=
  (reads_readU32 _).bind ((reads_readU64 _).bind ((reads_readU32 _).bind
    ((reads_readU32 _).bind ((reads_readU64 _).bind_pure _))))

theorem roundTrips (tag fresh : MultipathTagConn) : codec.RoundTrips tag fresh tag := by
  have length : tag.serialize.length = tag.getSerializedSize := by
    simp [serialize, getSerializedSize]
  exact ⟨(codec.writes_iff tag).mpr length, tag.reads, length.symm⟩

end MultipathTagConn

theorem CybertwinTag.roundTrips (cuid fresh : CybertwinId) :
    CybertwinTag.codec.RoundTrips cuid fresh cuid :=
  ⟨(codec.writes_iff cuid).mpr (writeU64_length cuid), reads_readU64 cuid,
    (writeU64_length cuid).symm⟩

theorem CybertwinCreditTag.roundTrips (tag fresh : CybertwinCreditTag) :
    codec.RoundTrips tag fresh tag := by
  have length : tag.serialize.length = 8 + 2 + 8 := by
    simp [serialize]
  exact ⟨(codec.writes_iff tag).mpr length, tag.reads, length.symm⟩

namespace CybertwinCertTag

/-- What the object `fresh` becomes: its user's members stay when no user is required. -/
def received (tag fresh : CybertwinCertTag) : CybertwinCertTag :=
  if tag.isUserRequired then tag
  else { tag with usr := fresh.usr, usrInitialCredit := fresh.usrInitialCredit }

theorem reads_received (tag fresh : CybertwinCertTag) :
    Reads (deserialize fresh) tag.serialize (tag.received fresh) := by
  have user : Reads (deserializeUser { fresh with
      cuid := tag.cuid, initialCredit := tag.initialCredit, ingressCredit := tag.ingressCredit,
      isUserRequired := tag.isUserRequired, isCertValid := tag.isCertValid })
      tag.serializeUser (tag.received fresh) := by
    obtain ⟨cuid, initialCredit, ingressCredit, isUserRequired, isCertValid, usr, credit⟩ := tag
    cases isUserRequired with
    | true => exact (reads_readU64 usr).bind ((reads_readU16 credit).bind_pure _)
    | false => exact Reads.pure _
  exact (reads_readU64 tag.cuid).bind ((reads_readU16 tag.initialCredit).bind
    ((reads_readU16 tag.ingressCredit).bind ((reads_readBool tag.isUserRequired).bind
      ((reads_readBool tag.isCertValid).bind user))))

theorem getSerializedSize_received (tag fresh : CybertwinCertTag) :
    (tag.received fresh).getSerializedSize = tag.getSerializedSize := by
  unfold received getSerializedSize
  split
  · rfl
  · rfl

theorem roundTrips (tag fresh : CybertwinCertTag) :
    codec.RoundTrips tag fresh (tag.received fresh) :=
  ⟨(codec.writes_iff tag).mpr tag.serialize_length, tag.reads_received fresh,
    (tag.getSerializedSize_received fresh).trans tag.serialize_length.symm⟩

end CybertwinCertTag

/-- The four tags of `cybertwin-tag.cc` round trip into default tags. -/
theorem cybertwinTags_roundTrip :
    (∀ cuid : CybertwinId, CybertwinTag.codec.RoundTrips cuid 0 cuid) ∧
    (∀ tag : CybertwinCreditTag, CybertwinCreditTag.codec.RoundTrips tag {} tag) ∧
    (∀ tag : CybertwinCertTag, ∃ got, CybertwinCertTag.codec.RoundTrips tag {} got ∧
      got.cuid = tag.cuid ∧ got.initialCredit = tag.initialCredit ∧
      got.ingressCredit = tag.ingressCredit ∧ got.isUserRequired = tag.isUserRequired ∧
      got.isCertValid = tag.isCertValid ∧
      if tag.isUserRequired then got.usr = tag.usr ∧ got.usrInitialCredit = tag.usrInitialCredit
      else got.usr = 0 ∧ got.usrInitialCredit = 0) ∧
    ∀ tag fresh : MultipathTagConn, MultipathTagConn.codec.RoundTrips tag fresh tag := by
  refine ⟨fun cuid => CybertwinTag.roundTrips cuid 0, fun tag => tag.roundTrips {}, fun tag => ?_,
    MultipathTagConn.roundTrips⟩
  refine ⟨tag.received {}, tag.roundTrips {}, ?_⟩
  unfold CybertwinCertTag.received
  by_cases required : tag.isUserRequired = true
  · simp [required]
  · simp [required]

/-! The tags of `cybertwin-packet-tags.cc`. -/

inductive TagKind
  | connInit
  | connJoin
  | connData
  deriving DecidableEq

def TagKind.toUInt8 : TagKind → UInt8
  | connInit => 0
  | connJoin => 1
  | connData => 2

structure CybertwinMpTag where
  kind : UInt8
  cyberID : CybertwinId
  deriving DecidableEq

namespace CybertwinMpTag

def setCybertwinID (tag : CybertwinMpTag) (id : CybertwinId) : CybertwinMpTag :=
  { tag with cyberID := id }

def codec : TagCodec CybertwinMpTag where
  getSerializedSize _ := 8 + 1
  serialize tag := writeU64 tag.cyberID
  deserialize fresh := do
    let cyberID ← readU64
    return { fresh with cyberID }

end CybertwinMpTag

/-- It declares the members of its base again, and its own are meant by its methods. -/
structure CybertwinMpTagJoin where
  base : CybertwinMpTag
  cyberID : CybertwinId
  kind : UInt8
  senderKey : MpConnKey
  recverKey : MpConnKey
  connectionID : MpConnId
  deriving DecidableEq

namespace CybertwinMpTagJoin

/-- The base has no constructor, and its members are what was in the memory. -/
def create (base : CybertwinMpTag) : CybertwinMpTagJoin :=
  ⟨base, 0, TagKind.connJoin.toUInt8, 0, 0, 0⟩

def setCybertwinID (tag : CybertwinMpTagJoin) (id : CybertwinId) : CybertwinMpTagJoin :=
  { tag with cyberID := id }

def setSenderKey (tag : CybertwinMpTagJoin) (key : MpConnKey) : CybertwinMpTagJoin :=
  { tag with senderKey := key }

def setRecverKey (tag : CybertwinMpTagJoin) (key : MpConnKey) : CybertwinMpTagJoin :=
  { tag with recverKey := key }

/-- The parameter is a key, narrower than the member. -/
def setConnectionID (tag : CybertwinMpTagJoin) (id : MpConnKey) : CybertwinMpTagJoin :=
  { tag with connectionID := id.toUInt64 }

def build (base : CybertwinMpTag) (id : CybertwinId) (senderKey recverKey : MpConnKey)
    (connectionID : MpConnId) : CybertwinMpTagJoin :=
  ((((create base).setCybertwinID id).setSenderKey senderKey).setRecverKey
    recverKey).setConnectionID connectionID.toUInt32

def serialize (tag : CybertwinMpTagJoin) : List UInt8 :=
  writeU64 tag.cyberID ++ (writeU8 tag.kind ++ (writeU32 tag.senderKey ++
    (writeU64 tag.recverKey.toUInt64 ++ writeU64 tag.connectionID)))

def deserialize (fresh : CybertwinMpTagJoin) : Reader CybertwinMpTagJoin := do
  let cyberID ← readU64
  let kind ← readU8
  let senderKey ← readU32
  let recverKey ← readU32
  let connectionID ← readU64
  return { fresh with cyberID, kind, senderKey, recverKey, connectionID }

def codec : TagCodec CybertwinMpTagJoin where
  getSerializedSize _ := 8 + 1 + 4 + 4 + 8
  serialize := serialize
  deserialize := deserialize

theorem serialize_length (tag : CybertwinMpTagJoin) : tag.serialize.length = 29 := by
  simp [serialize]

end CybertwinMpTagJoin

structure CybertwinMpTagData where
  base : CybertwinMpTag
  senderKey : MpConnKey
  recverKey : MpConnKey
  connectionID : MpConnId
  deriving DecidableEq

namespace CybertwinMpTagData

def create (base : CybertwinMpTag) : CybertwinMpTagData := ⟨base, 0, 0, 0⟩

def setCybertwinID (tag : CybertwinMpTagData) (id : CybertwinId) : CybertwinMpTagData :=
  { tag with base := tag.base.setCybertwinID id }

def setSenderKey (tag : CybertwinMpTagData) (key : MpConnKey) : CybertwinMpTagData :=
  { tag with senderKey := key }

def setRecverKey (tag : CybertwinMpTagData) (key : MpConnKey) : CybertwinMpTagData :=
  { tag with recverKey := key }

/-- The parameter is a key, narrower than the member. -/
def setConnectionID (tag : CybertwinMpTagData) (id : MpConnKey) : CybertwinMpTagData :=
  { tag with connectionID := id.toUInt64 }

def build (base : CybertwinMpTag) (id : CybertwinId) (senderKey recverKey : MpConnKey)
    (connectionID : MpConnId) : CybertwinMpTagData :=
  ((((create base).setCybertwinID id).setSenderKey senderKey).setRecverKey
    recverKey).setConnectionID connectionID.toUInt32

def serialize (tag : CybertwinMpTagData) : List UInt8 :=
  writeU64 tag.base.cyberID ++ (writeU32 tag.senderKey ++
    (writeU64 tag.recverKey.toUInt64 ++ writeU64 tag.connectionID))

def deserialize (fresh : CybertwinMpTagData) : Reader CybertwinMpTagData := do
  let cyberID ← readU64
  let senderKey ← readU32
  let recverKey ← readU32
  let connectionID ← readU64
  return { fresh with base := { fresh.base with cyberID }, senderKey, recverKey, connectionID }

def codec : TagCodec CybertwinMpTagData where
  getSerializedSize _ := 8 + 4 + 4 + 8
  serialize := serialize
  deserialize := deserialize

theorem serialize_length (tag : CybertwinMpTagData) : tag.serialize.length = 28 := by
  simp [serialize]

end CybertwinMpTagData

theorem TagCodec.not_roundTrips {Tag : Type} {codec : TagCodec Tag} {tag fresh got : Tag}
    (differs : (codec.serialize tag).length ≠ codec.getSerializedSize tag) :
    ¬ codec.RoundTrips tag fresh got := fun trips =>
  differs ((codec.writes_iff tag).mp trips.writes)

/-! Behind the sender's key a word of 64 bits is written and one of 32 bits is read: what follows is
read 32 bits too early. -/

/-- None of the three classes writes the bytes that it says it takes. -/
theorem mpTags_not_roundTrip (memory fresh : CybertwinMpTag) (freshJoin : CybertwinMpTagJoin)
    (freshData : CybertwinMpTagData) (id : CybertwinId) (senderKey recverKey : MpConnKey)
    (connectionID : MpConnId) :
    (¬ ∃ got, CybertwinMpTag.codec.RoundTrips (memory.setCybertwinID id) fresh got ∧
      got.cyberID = id) ∧
    (¬ ∃ got, CybertwinMpTagJoin.codec.RoundTrips
        (CybertwinMpTagJoin.build memory id senderKey recverKey connectionID) freshJoin got ∧
      got.cyberID = id ∧ got.kind = TagKind.connJoin.toUInt8 ∧ got.senderKey = senderKey ∧
      got.recverKey = recverKey ∧ got.connectionID = connectionID) ∧
    ¬ ∃ got, CybertwinMpTagData.codec.RoundTrips
        (CybertwinMpTagData.build memory id senderKey recverKey connectionID) freshData got ∧
      got.base.cyberID = id ∧ got.senderKey = senderKey ∧
      got.recverKey = recverKey ∧ got.connectionID = connectionID := by
  refine ⟨?_, ?_, ?_⟩
  · rintro ⟨got, trips, -⟩
    refine TagCodec.not_roundTrips ?_ trips
    simp [CybertwinMpTag.codec]
  · rintro ⟨got, trips, -⟩
    refine TagCodec.not_roundTrips ?_ trips
    change (CybertwinMpTagJoin.serialize _).length ≠ 25
    rw [CybertwinMpTagJoin.serialize_length]
    decide
  · rintro ⟨got, trips, -⟩
    refine TagCodec.not_roundTrips ?_ trips
    change (CybertwinMpTagData.serialize _).length ≠ 24
    rw [CybertwinMpTagData.serialize_length]
    decide

/-- A buffer of the 25 bytes that a join tag asks for is overrun. -/
theorem joinTag_not_roundTrip :
    ¬ ∃ got, CybertwinMpTagJoin.codec.RoundTrips
      (CybertwinMpTagJoin.build ⟨0, 0⟩ 1 2 3 4) (CybertwinMpTagJoin.create ⟨0, 0⟩) got ∧
      got.cyberID = 1 ∧ got.kind = TagKind.connJoin.toUInt8 ∧ got.senderKey = 2 ∧
      got.recverKey = 3 ∧ got.connectionID = 4 := by
  rintro ⟨got, trips, -⟩
  have written := trips.writes (List.replicate 25 0) rfl
  exact absurd written (by decide)

end FISim
