import FISim.Header

/-!
The codecs of the headers in both directions.  `Deserialize` reads into an object
that may hold another header already and returns the size of what it then holds.
-/

namespace FISim

open BigEndian

/-- A header is written in its announced size, and is read back whatever the object held before
and whatever follows; and what is read off enough bytes is written as the bytes that were read. -/
structure Codec {Header : Type} (serialize : Header → Packet) (getSerializedSize : Header → ℕ)
    (deserializeInto : Header → Reader (ℕ × Header)) (fits : Header → Prop)
    (enough : Packet → Prop) : Prop where
  size : ∀ header, (serialize header).length = getSerializedSize header
  reads : ∀ header object payload, fits header →
    deserializeInto object (serialize header ++ payload) =
      some ((getSerializedSize header, header), payload)
  total : ∀ object bytes, enough bytes → (deserializeInto object bytes).isSome
  spells : ∀ object bytes count header rest,
    deserializeInto object bytes = some ((count, header), rest) →
      serialize header ++ rest = bytes ∧ count + rest.length = bytes.length

section Codec

variable {Header : Type} {serialize : Header → Packet} {getSerializedSize : Header → ℕ}
  {deserializeInto : Header → Reader (ℕ × Header)} {fits : Header → Prop}
  {enough : Packet → Prop}

theorem codec_of (deserialize : Reader Header)
    (size : ∀ header, (serialize header).length = getSerializedSize header)
    (fresh : ∀ object, deserializeInto object =
      (fun header => (getSerializedSize header, header)) <$> deserialize)
    (reads : ∀ header, fits header → Reads deserialize (serialize header) header)
    (total : ∀ bytes, enough bytes → (deserialize bytes).isSome)
    (spells : Spells [] deserialize serialize) :
    Codec serialize getSerializedSize deserializeInto fits enough where
  size := size
  reads header object payload fit := by
    rw [fresh]
    exact (reads header fit).map (fun header => (getSerializedSize header, header)) payload
  total object bytes long := by
    rw [fresh, map_apply, Option.isSome_map]
    exact total bytes long
  spells object bytes count header rest read := by
    rw [fresh, map_apply, Option.map_eq_some_iff] at read
    obtain ⟨⟨found, after⟩, taken, same⟩ := read
    obtain ⟨pair, rfl⟩ := Prod.mk.inj same
    obtain ⟨rfl, rfl⟩ := Prod.mk.inj pair
    have spelled := spells bytes found after taken
    rw [List.nil_append] at spelled
    refine ⟨spelled.symm, ?_⟩
    rw [spelled, List.length_append, size]

end Codec

namespace CybertwinHeader

def deserializeInto (object : CybertwinHeader) : Reader (ℕ × CybertwinHeader) := do
  let command ← readU8
  let cybertwin ← readNtohU64
  let peer ← readNtohU64
  let size ← readNtohU32
  let cybertwinPort ← readNtohU16
  let recvRate ← readU8
  let object := { object with command, cybertwin, peer, size, cybertwinPort, recvRate }
  return (object.getSerializedSize, object)

theorem codec : Codec serialize getSerializedSize deserializeInto (fun _ => True)
    (fun bytes => 24 ≤ bytes.length) := by
  apply codec_of deserialize
  · intro header
    simp [serialize, getSerializedSize]
  · intro object
    simp only [deserializeInto, deserialize, map_bind, map_pure]
  · intro header _
    exact (reads_readU8 _).bind ((reads_readNtohU64 _).bind ((reads_readNtohU64 _).bind
      ((reads_readNtohU32 _).bind ((reads_readNtohU16 _).bind ((reads_readU8 _).bind_pure _)))))
  · intro bytes long
    have takes : Takes deserialize 24 := takes_readU8.bind fun _ => takes_readNtohU64.bind fun _ =>
      takes_readNtohU64.bind fun _ => takes_readNtohU32.bind fun _ =>
        takes_readNtohU16.bind fun _ => takes_readU8.bind fun _ => Takes.pure _
    exact (takes.isSome_iff bytes).mpr long
  · apply spells_readU8.bind
    intro command
    apply spells_readNtohU64.bind
    intro cybertwin
    apply spells_readNtohU64.bind
    intro peer
    apply spells_readNtohU32.bind
    intro size
    apply spells_readNtohU16.bind
    intro cybertwinPort
    apply spells_readU8.bind
    intro recvRate
    apply Spells.pure
    simp only [serialize, List.nil_append, List.append_assoc]

end CybertwinHeader

namespace EndHostHeader

def deserializeInto (object : EndHostHeader) : Reader (ℕ × EndHostHeader) := do
  let command ← readU8
  let targetID ← readNtohU64
  let object := { object with command, targetID }
  return (object.getSerializedSize, object)

theorem codec : Codec serialize getSerializedSize deserializeInto (fun _ => True)
    (fun bytes => 9 ≤ bytes.length) := by
  apply codec_of deserialize
  · exact serialize_length
  · intro object
    simp only [deserializeInto, deserialize, map_bind, map_pure]
  · exact fun header _ => reads header
  · exact fun bytes long => (takes.isSome_iff bytes).mpr long
  · apply spells_readU8.bind
    intro command
    apply spells_readNtohU64.bind
    intro targetID
    apply Spells.pure
    simp only [serialize, List.nil_append]

end EndHostHeader

namespace CybertwinManagerHeader

def deserializeInto (object : CybertwinManagerHeader) : Reader (ℕ × CybertwinManagerHeader) := do
  let command ← readU8
  let cnameLength ← readNtohU16
  let cname ← readBytes cnameLength.toNat
  let cuid ← readNtohU64
  let port ← readNtohU16
  let object := { object with command, cname, cuid, port }
  return (object.getSerializedSize, object)

/-- The bytes have room for a name of the length that they announce. -/
def Enough (bytes : Packet) : Prop :=
  3 ≤ bytes.length ∧ 13 + ofBytes ((bytes.drop 1).take 2) ≤ bytes.length

theorem spells : Spells [] deserialize serialize := by
  apply spells_readU8.bind
  intro command
  apply spells_readNtohU16.bind
  intro cnameLength
  apply (spells_readBytes cnameLength.toNat).bind_found
  intro cname bytes rest read
  have length := readBytes_length read
  apply spells_readNtohU64.bind
  intro cuid
  apply spells_readNtohU16.bind
  intro port
  apply Spells.pure
  simp only [serialize, List.nil_append, List.append_assoc, length, UInt16.ofNat_toNat, id]

theorem total {bytes : Packet} (enough : Enough bytes) : (deserialize bytes).isSome := by
  obtain ⟨atLeast, named⟩ := enough
  have second : 2 ≤ (bytes.drop 1).length := by
    rw [List.length_drop]
    omega
  obtain ⟨command, first⟩ := takes_readU8.enough bytes (by omega)
  have number : readNtohU16 (bytes.drop 1) =
      some (UInt16.ofNat (ofBytes ((bytes.drop 1).take 2)), bytes.drop 3) := by
    simp only [readNtohU16, readNat, map_apply, if_pos second, Option.map_some, List.drop_drop]
  have rest : Takes (do
      let cname ← readBytes (UInt16.ofNat (ofBytes ((bytes.drop 1).take 2))).toNat
      let cuid ← readNtohU64
      let port ← readNtohU16
      return ({ command, cname, cuid, port } : CybertwinManagerHeader)) _ :=
    (takes_readBytes _).bind fun _ => takes_readNtohU64.bind fun _ =>
      takes_readNtohU16.bind fun _ => Takes.pure _
  have small : ofBytes ((bytes.drop 1).take 2) < 2 ^ 16 := by
    have below := ofBytes_lt ((bytes.drop 1).take 2)
    rwa [List.length_take, Nat.min_eq_left second] at below
  have long : (UInt16.ofNat (ofBytes ((bytes.drop 1).take 2))).toNat + (8 + (2 + 0)) ≤
      (bytes.drop 3).length := by
    rw [UInt16.toNat_ofNat', Nat.mod_eq_of_lt small, List.length_drop]
    omega
  have read := (rest.isSome_iff (bytes.drop 3)).mpr long
  unfold deserialize
  rw [bind_apply, first, Option.bind_some, bind_apply, number, Option.bind_some]
  exact read

theorem codec : Codec serialize getSerializedSize deserializeInto
    (fun header => header.cname.length ≤ 65535) Enough := by
  apply codec_of deserialize
  · exact serialize_length
  · intro object
    simp only [deserializeInto, deserialize, map_bind, map_pure]
  · exact fun header fits => reads fits
  · exact fun bytes enough => total enough
  · exact spells

end CybertwinManagerHeader

namespace MultipathHeader

def deserializeInto (object : MultipathHeader) : Reader (ℕ × MultipathHeader) := do
  let pathId ← readNtohU32
  let cuid ← readNtohU64
  let senderKey ← readNtohU32
  let recverKey ← readNtohU32
  let connId ← readNtohU64
  let object := { object with pathId, cuid, senderKey, recverKey, connId }
  return (object.getSerializedSize, object)

theorem codec : Codec serialize getSerializedSize deserializeInto (fun _ => True)
    (fun bytes => 28 ≤ bytes.length) := by
  apply codec_of deserialize
  · exact serialize_length
  · intro object
    simp only [deserializeInto, deserialize, map_bind, map_pure]
  · exact fun header _ => reads header
  · exact fun bytes long => (takes.isSome_iff bytes).mpr long
  · apply spells_readNtohU32.bind
    intro pathId
    apply spells_readNtohU64.bind
    intro cuid
    apply spells_readNtohU32.bind
    intro senderKey
    apply spells_readNtohU32.bind
    intro recverKey
    apply spells_readNtohU64.bind
    intro connId
    apply Spells.pure
    simp only [serialize, List.nil_append, List.append_assoc]

end MultipathHeader

namespace MultipathHeaderDSN

def deserializeInto (object : MultipathHeaderDSN) : Reader (ℕ × MultipathHeaderDSN) := do
  let cuid ← readNtohU64
  let dataSeqNum ← readNtohU64
  let dataLen ← readNtohU32
  let object := { object with cuid, dataSeqNum, dataLen }
  return (object.getSerializedSize, object)

theorem codec : Codec serialize getSerializedSize deserializeInto (fun _ => True)
    (fun bytes => 20 ≤ bytes.length) := by
  apply codec_of deserialize
  · exact serialize_length
  · intro object
    simp only [deserializeInto, deserialize, map_bind, map_pure]
  · exact fun header _ => reads header
  · exact fun bytes long => (takes.isSome_iff bytes).mpr long
  · apply spells_readNtohU64.bind
    intro cuid
    apply spells_readNtohU64.bind
    intro dataSeqNum
    apply spells_readNtohU32.bind
    intro dataLen
    apply Spells.pure
    simp only [serialize, List.nil_append, List.append_assoc]

end MultipathHeaderDSN

/-- The codecs of all headers but that of the name resolution service. -/
theorem codecs :
    Codec CybertwinHeader.serialize CybertwinHeader.getSerializedSize
      CybertwinHeader.deserializeInto (fun _ => True) (fun bytes => 24 ≤ bytes.length) ∧
    Codec EndHostHeader.serialize EndHostHeader.getSerializedSize EndHostHeader.deserializeInto
      (fun _ => True) (fun bytes => 9 ≤ bytes.length) ∧
    Codec CybertwinManagerHeader.serialize CybertwinManagerHeader.getSerializedSize
      CybertwinManagerHeader.deserializeInto (fun header => header.cname.length ≤ 65535)
      CybertwinManagerHeader.Enough ∧
    Codec MultipathHeader.serialize MultipathHeader.getSerializedSize
      MultipathHeader.deserializeInto (fun _ => True) (fun bytes => 28 ≤ bytes.length) ∧
    Codec MultipathHeaderDSN.serialize MultipathHeaderDSN.getSerializedSize
      MultipathHeaderDSN.deserializeInto (fun _ => True) (fun bytes => 20 ≤ bytes.length) :=
  ⟨CybertwinHeader.codec, EndHostHeader.codec, CybertwinManagerHeader.codec, MultipathHeader.codec,
    MultipathHeaderDSN.codec⟩

namespace CNRSHeader

inductive Setter
  | setMethod (method : UInt8)
  | setQueryId (queryId : QueryId)
  | setCuid (cuid : CybertwinId)
  | setInterfaceList (interfaceList : CybertwinInterfaceList)
  | setInterfaceNum (interfaceNum : UInt8)
  deriving DecidableEq, Repr

def set (header : CNRSHeader) : Setter → CNRSHeader
  | .setMethod method => { header with method := .ofCode method }
  | .setQueryId queryId => { header with queryId }
  | .setCuid cuid => { header with cuid }
  | .setInterfaceList interfaceList => header.setInterfaceList interfaceList
  | .setInterfaceNum interfaceNum => { header with interfaceNum }

-- The list of the object is appended to.
def deserializeInto (object : CNRSHeader) : Reader (ℕ × CNRSHeader) := do
  let method ← CNRSMethod.ofCode <$> readU8
  let queryId ← readNtohU32
  let cuid ← readNtohU64
  let interfaceNum ← readU8
  let interfaces ← readMany readInterface (if method.carriesList then interfaceNum.toNat else 0)
  let object : CNRSHeader := { object with
    method, queryId, cuid, interfaceNum
    interfaceList := object.interfaceList ++ interfaces }
  return (object.getSerializedSize, object)

/-- The header is written in its announced size, and an object that reads it holds it. -/
def RoundTrips (header object : CNRSHeader) : Prop :=
  header.serialize.length = header.getSerializedSize ∧
    ∃ count received, (∀ payload, object.deserializeInto (header.serialize ++ payload) =
        some ((count, received), payload)) ∧
      received.method = header.method ∧ received.queryId = header.queryId ∧
      received.cuid = header.cuid ∧
      (header.method.carriesList = true → received.interfaceList = header.interfaceList)

/-- The number is that of the entries that are written, and they are read into an empty list. -/
def Matched (header object : CNRSHeader) : Prop :=
  if header.method.carriesList then
    header.interfaceNum.toNat = header.interfaceList.length ∧ object.interfaceList = []
  else header.interfaceNum = 0

instance (header object : CNRSHeader) : Decidable (Matched header object) := by
  delta Matched
  infer_instance

theorem code_ofCode (code : UInt8) : (CNRSMethod.ofCode code).code = code := by
  grind [CNRSMethod.ofCode, CNRSMethod.code]

theorem known_ofCode (code : UInt8) :
    CNRSMethod.ofCode (CNRSMethod.ofCode code).code = CNRSMethod.ofCode code := by
  rw [code_ofCode]

theorem known_set (setters : List Setter) :
    CNRSMethod.ofCode (setters.foldl set {}).method.code = (setters.foldl set {}).method := by
  have kept : ∀ header : CNRSHeader, CNRSMethod.ofCode header.method.code = header.method →
      CNRSMethod.ofCode (setters.foldl set header).method.code =
        (setters.foldl set header).method := by
    induction setters with
    | nil => exact fun _ known => known
    | cons setter rest ih =>
        intro header known
        apply ih
        cases setter with
        | setMethod method => exact known_ofCode method
        | setQueryId => exact known
        | setCuid => exact known
        | setInterfaceList => exact known
        | setInterfaceNum => exact known
  exact kept {} rfl

theorem deserializeInto_serialize {header : CNRSHeader} (object : CNRSHeader)
    (known : CNRSMethod.ofCode header.method.code = header.method)
    (number : header.method.carriesList = true →
      header.interfaceNum.toNat = header.interfaceList.length) :
    Reads object.deserializeInto header.serialize (header.getSerializedSize, { header with
      interfaceList := object.interfaceList ++
        if header.method.carriesList then header.interfaceList else [] }) := by
  have method := (reads_readU8 header.method.code).map CNRSMethod.ofCode
  rw [known] at method
  refine method.bind ((reads_readNtohU32 _).bind ((reads_readNtohU64 _).bind
    ((reads_readU8 _).bind ?_)))
  cases carries : header.method.carriesList with
  | true =>
      have list := reads_readMany reads_interface header.interfaceList
      rw [← number carries] at list
      exact list.bind_pure _
  | false =>
      have list := reads_readMany reads_interface []
      exact list.bind_pure _

theorem roundTrips_iff_matched {header object : CNRSHeader}
    (known : CNRSMethod.ofCode header.method.code = header.method) :
    RoundTrips header object ↔ Matched header object := by
  have written : header.serialize.length =
      14 + if header.method.carriesList then header.interfaceList.length * 6 else 0 := by
    unfold serialize
    split
    · simp only [List.length_append, interfaces_length, writeU8_length, writeHtonU32_length,
        writeHtonU64_length]
      omega
    · rfl
  have size : header.getSerializedSize = 14 + header.interfaceNum.toNat * 6 := by
    unfold getSerializedSize
    omega
  unfold Matched
  cases carries : header.method.carriesList with
  | true =>
      rw [carries, if_pos rfl] at written
      rw [if_pos rfl]
      constructor
      · rintro ⟨length, count, received, read, -, -, -, list⟩
        have number : header.interfaceNum.toNat = header.interfaceList.length := by omega
        have reads := deserializeInto_serialize object known (fun _ => number) []
        rw [read [], carries, if_pos rfl] at reads
        have held := congrArg CNRSHeader.interfaceList
          (Prod.mk.inj (Prod.mk.inj (Option.some.inj reads)).1).2
        rw [list carries] at held
        exact ⟨number, List.self_eq_append_left.mp held⟩
      · rintro ⟨number, empty⟩
        have reads := deserializeInto_serialize object known fun _ => number
        refine ⟨by omega, _, _, reads, rfl, rfl, rfl, ?_⟩
        intro _
        simp only [empty, List.nil_append, carries, if_true]
  | false =>
      rw [carries, if_neg Bool.false_ne_true] at written
      rw [if_neg Bool.false_ne_true]
      constructor
      · rintro ⟨length, -⟩
        apply UInt8.toNat_inj.mp
        change header.interfaceNum.toNat = 0
        omega
      · intro none
        have reads := deserializeInto_serialize object known (by simp [carries])
        refine ⟨?_, _, _, reads, rfl, rfl, rfl, fun contrary => absurd contrary (by simp [carries])⟩
        rw [written, size, none]
        rfl

/-- For every header that the setters make and every object that it is read into. -/
theorem roundTrips_iff (setters : List Setter) (object : CNRSHeader) :
    RoundTrips (setters.foldl set {}) object ↔ Matched (setters.foldl set {}) object :=
  roundTrips_iff_matched (known_set setters)

/-- An object that is used again keeps the list that it had. -/
theorem usedObject_appended : ¬ ∀ (setters : List Setter) (object : CNRSHeader),
    RoundTrips (setters.foldl set {}) object := by
  intro holds
  have matched := (roundTrips_iff_matched (known_set _)).mp
    (holds [.setMethod 1, .setInterfaceList [(0x0A000001, 80)]]
      { interfaceList := [(0x0A000002, 81)] })
  exact absurd matched (by decide)

end CNRSHeader

end FISim