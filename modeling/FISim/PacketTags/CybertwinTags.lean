import FISim.Common
import FISim.PacketTags.TagList

/-!
The tags of `cybertwin-tag.cc`.  A `TagBuffer` writes the least significant byte
first, and a `CybertwinCertTag` has its user's fields only when one is required.
-/

namespace FISim

open BigEndian

namespace TagBuffer

def writeU16 (value : UInt16) : List UInt8 := (writeHtonU16 value).reverse

def writeU64 (value : UInt64) : List UInt8 := (writeHtonU64 value).reverse

def writeBool (value : Bool) : List UInt8 := writeU8 (if value then 1 else 0)

def readReversed {α : Type} (size : ℕ) (reader : Reader α) : Reader (Option α) := do
  let bytes ← readBytes size
  return (reader bytes.reverse).map Prod.fst

def readLe {α : Type} (size : ℕ) (reader : Reader α) : Reader α := fun bytes => do
  let (found, rest) ← readReversed size reader bytes
  let value ← found
  return (value, rest)

def readU16 : Reader UInt16 := readLe 2 readNtohU16

def readU64 : Reader UInt64 := readLe 8 readNtohU64

def readBool : Reader Bool := (fun value => value ≠ 0) <$> readU8

theorem reads_readLe {α : Type} {size : ℕ} {reader : Reader α} {encoded : List UInt8} {value : α}
    (reads : Reads reader encoded value) (length : encoded.length = size) :
    Reads (readLe size reader) encoded.reverse value := by
  intro rest
  have taken := reads_readBytes (by rw [List.length_reverse, length]) rest
  have found := reads []
  rw [List.append_nil] at found
  simp only [readLe, readReversed, bind_apply, taken, Option.bind_some, pure_apply,
    List.reverse_reverse, found, Option.map_some, Option.bind_eq_bind]
  rfl

theorem reads_readU16 (value : UInt16) : Reads readU16 (writeU16 value) value :=
  reads_readLe (reads_readNtohU16 value) (toBytes_length 2 _)

theorem reads_readU64 (value : UInt64) : Reads readU64 (writeU64 value) value :=
  reads_readLe (reads_readNtohU64 value) (toBytes_length 8 _)

theorem reads_readBool (value : Bool) : Reads readBool (writeBool value) value := by
  have reads := (reads_readU8 (if value then 1 else 0)).map fun byte => decide (byte ≠ 0)
  cases value with
  | false => exact reads
  | true => exact reads

end TagBuffer

open TagBuffer

structure CybertwinCreditTag where
  cuid : CybertwinId := 0
  credit : UInt16 := 0
  peer : CybertwinId := 0
  deriving DecidableEq

structure CybertwinCertTag where
  cuid : CybertwinId := 0
  initialCredit : UInt16 := 0
  ingressCredit : UInt16 := 0
  isUserRequired : Bool := false
  isCertValid : Bool := false
  usr : CybertwinId := 0
  usrInitialCredit : UInt16 := 0
  deriving DecidableEq

inductive CybertwinTag
  | cybertwin (cuid : CybertwinId)
  | credit (tag : CybertwinCreditTag)
  | cert (tag : CybertwinCertTag)
  deriving DecidableEq

inductive CybertwinTypeId
  | cybertwin
  | credit
  | cert
  deriving DecidableEq

namespace CybertwinCreditTag

def serialize (tag : CybertwinCreditTag) : List UInt8 :=
  writeU64 tag.cuid ++ (writeU16 tag.credit ++ writeU64 tag.peer)

def deserialize : Reader CybertwinCreditTag := do
  let cuid ← readU64
  let credit ← readU16
  let peer ← readU64
  return { cuid, credit, peer }

theorem reads (tag : CybertwinCreditTag) : Reads deserialize tag.serialize tag :=
  (reads_readU64 tag.cuid).bind
    ((reads_readU16 tag.credit).bind ((reads_readU64 tag.peer).bind_pure _))

end CybertwinCreditTag

namespace CybertwinCertTag

def getSerializedSize (tag : CybertwinCertTag) : ℕ :=
  8 + 2 + 2 + 1 + 1 + if tag.isUserRequired then 8 + 2 else 0

def serializeUser (tag : CybertwinCertTag) : List UInt8 :=
  if tag.isUserRequired then writeU64 tag.usr ++ writeU16 tag.usrInitialCredit else []

def serialize (tag : CybertwinCertTag) : List UInt8 :=
  writeU64 tag.cuid ++ (writeU16 tag.initialCredit ++ (writeU16 tag.ingressCredit ++
    (writeBool tag.isUserRequired ++ (writeBool tag.isCertValid ++ tag.serializeUser))))

-- The members of the user stay as they are in the object when no user is required.
def deserializeUser (tag : CybertwinCertTag) : Reader CybertwinCertTag :=
  if tag.isUserRequired then do
    let usr ← readU64
    let usrInitialCredit ← readU16
    return { tag with usr, usrInitialCredit }
  else return tag

def deserialize (object : CybertwinCertTag) : Reader CybertwinCertTag := do
  let cuid ← readU64
  let initialCredit ← readU16
  let ingressCredit ← readU16
  let isUserRequired ← readBool
  let isCertValid ← readBool
  deserializeUser
    { object with cuid, initialCredit, ingressCredit, isUserRequired, isCertValid }

theorem serialize_length (tag : CybertwinCertTag) :
    tag.serialize.length = tag.getSerializedSize := by
  unfold serialize getSerializedSize serializeUser
  cases tag.isUserRequired with
  | false => simp [writeU64, writeU16, writeBool, writeU8, writeHtonU64, writeHtonU16]
  | true => simp [writeU64, writeU16, writeBool, writeU8, writeHtonU64, writeHtonU16]

theorem reads (tag object : CybertwinCertTag) : ∃ got,
    Reads (deserialize object) tag.serialize got ∧ got.serialize = tag.serialize := by
  have user : ∃ got, Reads (deserializeUser { object with
      cuid := tag.cuid, initialCredit := tag.initialCredit, ingressCredit := tag.ingressCredit,
      isUserRequired := tag.isUserRequired, isCertValid := tag.isCertValid })
      tag.serializeUser got ∧ got.serialize = tag.serialize := by
    unfold deserializeUser serializeUser serialize
    cases required : tag.isUserRequired with
    | true =>
        exact ⟨_, (reads_readU64 tag.usr).bind ((reads_readU16 tag.usrInitialCredit).bind_pure _),
          by simp [serializeUser, required]⟩
    | false => exact ⟨_, Reads.pure _, by simp [serializeUser, required]⟩
  obtain ⟨got, reads, same⟩ := user
  exact ⟨got, (reads_readU64 tag.cuid).bind ((reads_readU16 tag.initialCredit).bind
    ((reads_readU16 tag.ingressCredit).bind ((reads_readBool tag.isUserRequired).bind
      ((reads_readBool tag.isCertValid).bind reads)))), same⟩

end CybertwinCertTag

namespace CybertwinTag

def getInstanceTypeId : CybertwinTag → CybertwinTypeId
  | cybertwin _ => .cybertwin
  | credit _ => .credit
  | cert _ => .cert

def serialize : CybertwinTag → List UInt8
  | cybertwin cuid => writeU64 cuid
  | credit tag => tag.serialize
  | cert tag => tag.serialize

def deserialize (bytes : List UInt8) : CybertwinTag → Option CybertwinTag
  | cybertwin _ => (readU64 bytes).map fun found => cybertwin found.1
  | credit _ => (CybertwinCreditTag.deserialize bytes).map fun found => credit found.1
  | cert object => (object.deserialize bytes).map fun found => cert found.1

instance : TagClass CybertwinTag CybertwinTypeId := ⟨getInstanceTypeId, serialize, deserialize⟩

instance : LawfulTags CybertwinTag where
  small tag := by
    cases tag with
    | cybertwin cuid =>
        change (writeU64 cuid).length < _
        simp [writeU64, writeHtonU64]
    | credit tag =>
        change tag.serialize.length < _
        simp [CybertwinCreditTag.serialize, writeU64, writeU16, writeHtonU64, writeHtonU16]
    | cert tag =>
        change tag.serialize.length < _
        rw [tag.serialize_length, CybertwinCertTag.getSerializedSize]
        split
        · decide
        · decide
  reads tag object rest same := by
    cases tag with
    | cybertwin cuid =>
        cases object with
        | cybertwin old =>
            refine ⟨cybertwin cuid, ?_, rfl, rfl⟩
            change (readU64 (writeU64 cuid ++ rest)).map (fun found => cybertwin found.1) = _
            rw [reads_readU64 cuid rest]
            rfl
        | credit old => cases same
        | cert old => cases same
    | credit tag =>
        cases object with
        | cybertwin old => cases same
        | credit old =>
            refine ⟨credit tag, ?_, rfl, rfl⟩
            change (CybertwinCreditTag.deserialize (tag.serialize ++ rest)).map
              (fun found => credit found.1) = _
            rw [tag.reads rest]
            rfl
        | cert old => cases same
    | cert tag =>
        cases object with
        | cybertwin old => cases same
        | credit old => cases same
        | cert old =>
            obtain ⟨got, reads, serialized⟩ := tag.reads old
            refine ⟨cert got, ?_, rfl, serialized⟩
            change (old.deserialize (tag.serialize ++ rest)).map (fun found => cert found.1) = _
            rw [reads rest]
            rfl

end CybertwinTag

end FISim
