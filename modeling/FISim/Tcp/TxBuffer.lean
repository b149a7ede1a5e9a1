import FISim.Tcp.RxBuffer

/-!
`TcpTxBuffer`: the data that a sender has not seen acknowledged.  An item is known
by the number of its `new`, and `none` is a failed assertion, an abort or the use
of a null or dangling pointer.
-/

namespace FISim.Tcp

open SequenceNumber32

structure TcpTxItem where
  id : ℕ
  packet : Packet
  startSeq : SequenceNumber32 := ⟨0⟩
  lost : Bool := false
  retrans : Bool := false
  sacked : Bool := false
  -- in time steps; `Time::Max()` at first
  lastSent : Int64 := 0x7fffffffffffffff
  deriving DecidableEq

namespace TcpTxItem

def size (item : TcpTxItem) : UInt32 := getSize item.packet

end TcpTxItem

/-- What an iterator over the sent list can be. -/
inductive Position
  | singular
  | pastEnd
  | item (id : ℕ)
  deriving DecidableEq

structure TcpTxBuffer where
  firstByteSeq : SequenceNumber32
  appList : List TcpTxItem := []
  sentList : List TcpTxItem := []
  maxBuffer : UInt32 := 32768
  size : UInt32 := 0
  sentSize : UInt32 := 0
  highestSack : Position × SequenceNumber32 := (.singular, ⟨0⟩)
  lostOut : UInt32 := 0
  sackedOut : UInt32 := 0
  retrans : UInt32 := 0
  dupAckThresh : UInt32 := 0
  renoSack : Bool := false
  sackEnabled : Bool := true
  -- how many items have been made
  made : ℕ := 0
  deriving DecidableEq

/-- `SplitItems`: the first `size` bytes in a new item, and the rest in the old one. -/
def splitItems (made : ℕ) (t2 : TcpTxItem) (size : UInt32) : Option (TcpTxItem × TcpTxItem) := do
  let packet ← createFragment t2.packet 0 size
  return ({ t2 with id := made, packet },
    { t2 with packet := t2.packet.drop size.toNat, startSeq := t2.startSeq.plus size })

/-- `MergeItems`, with the buffer's `m_retrans`. -/
def mergeItems (retrans : UInt32) (t1 t2 : TcpTxItem) : Option (TcpTxItem × UInt32) :=
  if t1.sacked ≠ t2.sacked ∨ t1.lost ≠ t2.lost then none
  else
    let lastSent := if t1.lastSent < t2.lastSent then t2.lastSent else t1.lastSent
    let packet := t1.packet ++ t2.packet
    if t1.retrans ≠ t2.retrans then
      if t1.retrans then
        some ({ t1 with packet, lastSent, retrans := false }, retrans - t1.size)
      else some ({ t1 with packet, lastSent }, retrans - t2.size)
    else some ({ t1 with packet, lastSent }, retrans)

structure Editing where
  list : List TcpTxItem
  retrans : UInt32
  made : ℕ

structure Walked where
  passed : List TcpTxItem
  beginOfCurrentPacket : SequenceNumber32
  current : TcpTxItem
  rest : List TcpTxItem

/-- The walk to the item that `seq` is inside of. -/
def walkTo (assertion : TcpTxItem → Bool) (seq : SequenceNumber32) :
    List TcpTxItem → SequenceNumber32 → List TcpTxItem → Option Walked
  | _, _, [] => none
  | passed, beginOfCurrentPacket, current :: rest =>
      if assertion current = false then none
      else if seq.less (beginOfCurrentPacket.plus current.size) then
        some { passed, beginOfCurrentPacket, current, rest }
      else
        walkTo assertion seq (passed ++ [current]) (beginOfCurrentPacket.plus current.size) rest

/-- `GetPacketFromList` with the place in the list of the item that it returns.  The number bounds
the recursion, whose calls but one each merge two items.  What the source has for an end of the
current packet that is not the end of the item at `seq` is never reached. -/
def getPacketFromList (assertion : TcpTxItem → Bool) (listStartFrom : SequenceNumber32)
    (numBytes : UInt32) (seq : SequenceNumber32) : ℕ → Editing → Option (Editing × ℕ)
  | 0, _ => none
  | depth + 1, editing => do
      let found ← walkTo assertion seq [] listStartFrom editing.list
      let current := found.current
      if seq = found.beginOfCurrentPacket then
        if (seq.plus numBytes).lessEqual (found.beginOfCurrentPacket.plus current.size) then
          if numBytes = current.size then return (editing, found.passed.length)
          else if numBytes < current.size then
            let (firstPart, current) ← splitItems editing.made current numBytes
            return ({ editing with
              list := found.passed ++ firstPart :: current :: found.rest
              made := editing.made + 1 }, found.passed.length)
          else none
        else
          match found.rest with
          | [] => return (editing, found.passed.length)
          | next :: rest =>
              let (merged, retrans) ← mergeItems editing.retrans current next
              getPacketFromList assertion listStartFrom numBytes seq depth
                { editing with list := found.passed ++ merged :: rest, retrans }
      else if seq.greater found.beginOfCurrentPacket then
        let size := (seq.minus found.beginOfCurrentPacket).toUInt32
        let (firstPart, current) ← splitItems editing.made current size
        getPacketFromList assertion listStartFrom numBytes seq depth { editing with
          list := found.passed ++ firstPart :: current :: found.rest
          made := editing.made + 1 }
      else none

/-- How many bytes `GetTransmittedSegment` looks for. -/
def transmittedSize (numBytes : UInt32) (seq : SequenceNumber32) : List TcpTxItem → UInt32
  | [] => numBytes
  | item :: rest =>
      if item.startSeq = seq then
        match rest with
        | [] => min numBytes item.size
        | next :: _ =>
            if next.sacked = false ∧ item.lost = next.lost then
              min numBytes (item.size + next.size)
            else min numBytes item.size
      else transmittedSize numBytes seq rest

namespace TcpTxBuffer

variable (buffer : TcpTxBuffer)

def tailSequence : SequenceNumber32 := buffer.firstByteSeq.plus buffer.size

def available : UInt32 := buffer.maxBuffer - buffer.size

def add (p : Packet) : TcpTxBuffer × Bool :=
  if getSize p ≤ buffer.available then
    if getSize p > 0 then
      ({ buffer with
        appList := buffer.appList ++ [{ id := buffer.made, packet := p }]
        size := buffer.size + getSize p
        made := buffer.made + 1 }, true)
    else (buffer, true)
  else (buffer, false)

def sizeFromSequence (seq : SequenceNumber32) : UInt32 :=
  let lastSeq := buffer.tailSequence
  if lastSeq.greaterEqual seq then (lastSeq.minus seq).toUInt32 else 0

def getNewSegment (numBytes : UInt32) : Option (TcpTxBuffer × ℕ) := do
  let startOfAppList := buffer.firstByteSeq.plus buffer.sentSize
  let (editing, index) ← getPacketFromList (fun _ => true) startOfAppList numBytes startOfAppList
    (buffer.appList.length + 3)
    { list := buffer.appList, retrans := buffer.retrans, made := buffer.made }
  let item ← editing.list[index]?
  let item := { item with startSeq := startOfAppList }
  return ({ buffer with
    appList := editing.list.eraseIdx index
    sentList := buffer.sentList ++ [item]
    sentSize := buffer.sentSize + item.size
    retrans := editing.retrans
    made := editing.made }, buffer.sentList.length)

def getTransmittedSegment (numBytes : UInt32) (seq : SequenceNumber32) :
    Option (TcpTxBuffer × ℕ) :=
  if seq.greaterEqual buffer.firstByteSeq = true ∧ numBytes ≤ buffer.sentSize ∧
      buffer.sentList ≠ [] then do
    let s := transmittedSize numBytes seq buffer.sentList
    let (editing, index) ← getPacketFromList
      (fun item => item.startSeq.greaterEqual buffer.firstByteSeq) buffer.firstByteSeq s seq
      (buffer.sentList.length + 3)
      { list := buffer.sentList, retrans := buffer.retrans, made := buffer.made }
    let item ← editing.list[index]?
    let retrans := if item.retrans then editing.retrans else editing.retrans + item.size
    return ({ buffer with
      sentList := editing.list.set index { item with retrans := true }
      retrans, made := editing.made }, index)
  else none

def markSent (now : Int64) (index : ℕ) : Option (TcpTxBuffer × Option ℕ) := do
  let item ← buffer.sentList[index]?
  if item.startSeq.greaterEqual buffer.firstByteSeq then
    return ({ buffer with sentList := buffer.sentList.set index { item with lastSent := now } },
      some index)
  else none

end TcpTxBuffer

/-- `CopyFromSequence` with the place in the sent list of the item that it returns.  The number
bounds the recursion, whose second call asks for transmitted bytes only. -/
def copyFromSequence (now : Int64) :
    ℕ → TcpTxBuffer → UInt32 → SequenceNumber32 → Option (TcpTxBuffer × Option ℕ)
  | 0, _, _, _ => none
  | depth + 1, buffer, numBytes, seq =>
      if buffer.firstByteSeq.greater seq then none
      else
        let s := min numBytes (buffer.sizeFromSequence seq)
        let startOfAppList := buffer.firstByteSeq.plus buffer.sentSize
        if s = 0 then some (buffer, none)
        else if startOfAppList.greaterEqual (seq.plus s) then do
          let (buffer, index) ← buffer.getTransmittedSegment s seq
          let outItem ← buffer.sentList[index]?
          if outItem.sacked then none else buffer.markSent now index
        else if startOfAppList.lessEqual seq then
          if startOfAppList = seq then do
            let (buffer, index) ← buffer.getNewSegment s
            let outItem ← buffer.sentList[index]?
            if outItem.retrans then none else buffer.markSent now index
          else none
        else if startOfAppList.value > seq.value ∧ startOfAppList.value < seq.value + s then
          copyFromSequence now depth buffer (startOfAppList.value - seq.value) seq
        else none

namespace TcpTxBuffer

variable (buffer : TcpTxBuffer)

def copyFromSequence (now : Int64) (numBytes : UInt32) (seq : SequenceNumber32) :
    Option (TcpTxBuffer × Option ℕ) :=
  Tcp.copyFromSequence now 2 buffer numBytes seq

def removeFromCounts (item : TcpTxItem) (size : UInt32) : Option TcpTxBuffer :=
  if (item.sacked = true → size ≤ buffer.sackedOut) ∧
      (item.retrans = true → size ≤ buffer.retrans) ∧
      (item.lost = true → size ≤ buffer.lostOut) then
    some { buffer with
      sackedOut := if item.sacked then buffer.sackedOut - size else buffer.sackedOut
      retrans := if item.retrans then buffer.retrans - size else buffer.retrans
      lostOut := if item.lost then buffer.lostOut - size else buffer.lostOut }
  else none

def markHeadAsLost : TcpTxBuffer :=
  match buffer.sentList with
  | [] => buffer
  | head :: rest =>
      { buffer with
        sentList := { head with sacked := false, retrans := false, lost := true } :: rest
        sackedOut := if head.sacked then buffer.sackedOut - head.size else buffer.sackedOut
        retrans := if head.retrans then buffer.retrans - head.size else buffer.retrans
        lostOut := if head.lost then buffer.lostOut else buffer.lostOut + head.size }

/-- `AddRenoSack`, which marks the first item behind the head that is not marked. -/
def addRenoSack : Option TcpTxBuffer :=
  match buffer.sentList with
  | [] => none
  | head :: rest =>
      if buffer.sackEnabled = true ∧ rest = [] then none
      else
        let marked := rest.takeWhile TcpTxItem.sacked
        match rest.dropWhile TcpTxItem.sacked with
        | [] => some { buffer with renoSack := true }
        | item :: others =>
            some { buffer with
              renoSack := true
              sentList := head :: (marked ++ { item with sacked := true } :: others)
              sackedOut := buffer.sackedOut + item.size
              highestSack := (.item item.id, item.startSeq) }

/-- The loop of `DiscardUpTo`, each turn of which discards a byte at least. -/
def discardLoop (now : Int64) : ℕ → TcpTxBuffer → UInt32 → Option TcpTxBuffer
  | 0, _, _ => none
  | turns + 1, buffer, offset =>
      if buffer.size > 0 ∧ offset > 0 then do
        let buffer ←
          match buffer.sentList with
          | [] => do
              let (copied, found) ← buffer.copyFromSequence now offset buffer.firstByteSeq
              let _ ← found
              some copied
          | _ :: _ => some buffer
        match buffer.sentList with
        | [] => none
        | item :: rest =>
            if item.startSeq ≠ buffer.firstByteSeq then none
            else if offset ≥ item.size then
              let shorter := { buffer with
                size := buffer.size - item.size
                sentSize := buffer.sentSize - item.size
                firstByteSeq := buffer.firstByteSeq.plus item.size }
              let counted ← shorter.removeFromCounts item item.size
              discardLoop now turns { counted with sentList := rest } (offset - item.size)
            else
              let packet ← createFragment item.packet offset (item.size - offset)
              let item := { item with packet, startSeq := item.startSeq.plus offset }
              { buffer with
                sentList := item :: rest
                size := buffer.size - offset
                sentSize := buffer.sentSize - offset
                firstByteSeq := buffer.firstByteSeq.plus offset }.removeFromCounts item offset
      else some buffer

/-- What `DiscardUpTo` does when the head is marked, which it cannot have been. -/
def moveHeadSack : Option TcpTxBuffer :=
  match buffer.sentList with
  | [] => some buffer
  | head :: rest =>
      if head.sacked then
        if head.lost then none
        else do
          let moved ← { buffer with
            sentList := { head with sacked := false } :: rest
            sackedOut := buffer.sackedOut - head.size }.addRenoSack
          return moved.markHeadAsLost
      else some buffer

def discardUpTo (now : Int64) (seq : SequenceNumber32) : Option TcpTxBuffer :=
  if buffer.firstByteSeq.greaterEqual seq then some buffer
  else do
    let offset := (seq.minus buffer.firstByteSeq).toUInt32
    let discarded ← discardLoop now (buffer.size.toNat + 1) buffer offset
    let discarded :=
      if discarded.size = 0 then { discarded with firstByteSeq := seq } else discarded
    let moved ← discarded.moveHeadSack
    if moved.sentList.head?.all (fun head => head.startSeq = seq) = false then none
    else
      let moved :=
        if moved.highestSack.2.lessEqual moved.firstByteSeq then
          { moved with highestSack := (.pastEnd, ⟨0⟩) }
        else moved
      if moved.firstByteSeq.greaterEqual seq = true ∧
          moved.sackedOut + moved.lostOut ≤ moved.sentSize then some moved
      else none

/-- What the loops of `Update` keep. -/
structure Sacking where
  lostOut : UInt32
  sackedOut : UInt32
  bytesSacked : UInt32
  highestSack : Position × SequenceNumber32

def sackItem (beginOfCurrentPacket : SequenceNumber32) (item : TcpTxItem) (sacking : Sacking) :
    Option (TcpTxItem × Sacking) :=
  if item.sacked then if item.lost then none else some (item, sacking)
  else
    some ({ item with lost := false, sacked := true }, {
      lostOut := if item.lost then sacking.lostOut - item.size else sacking.lostOut
      sackedOut := sacking.sackedOut + item.size
      bytesSacked := sacking.bytesSacked + item.size
      highestSack :=
        if sacking.highestSack.1 = .pastEnd ∨
            sacking.highestSack.2.lessEqual (beginOfCurrentPacket.plus item.size) then
          (.item item.id, beginOfCurrentPacket)
        else sacking.highestSack })

def sackBlock (block : SackBlock) :
    SequenceNumber32 → List TcpTxItem → Sacking → Option (List TcpTxItem × Sacking)
  | _, [], sacking => some ([], sacking)
  | beginOfCurrentPacket, item :: rest, sacking => do
      let endOfPacket := beginOfCurrentPacket.plus item.size
      if beginOfCurrentPacket.greaterEqual block.1 = true ∧ endOfPacket.lessEqual block.2 = true then
        let (item, sacking) ← sackItem beginOfCurrentPacket item sacking
        let (rest, sacking) ← sackBlock block endOfPacket rest sacking
        return (item :: rest, sacking)
      else if endOfPacket.greater block.2 then return (item :: rest, sacking)
      else
        let (rest, sacking) ← sackBlock block endOfPacket rest sacking
        return (item :: rest, sacking)

/-- The blocks of an option.  The flag says that one of them lies outside the sent list, where
`Update` returns. -/
def sackBlocks (firstByteSeq : SequenceNumber32) (sentSize : UInt32) :
    List SackBlock → List TcpTxItem → Sacking → Option (List TcpTxItem × Sacking × Bool)
  | [], items, sacking => some (items, sacking, false)
  | block :: list, items, sacking =>
      if (firstByteSeq.plus sentSize).less block.1 then some (items, sacking, true)
      else do
        let (items, sacking) ← sackBlock block firstByteSeq items sacking
        sackBlocks firstByteSeq sentSize list items sacking

/-- The loop of `UpdateLostCount`, over the items from the highest marked one down. -/
def lostLoop (dupAckThresh : UInt32) :
    List TcpTxItem → UInt32 → UInt32 → List TcpTxItem × UInt32 × UInt32
  | [], sacked, lostOut => ([], sacked, lostOut)
  | item :: below, sacked, lostOut =>
      let sacked := if item.sacked then sacked + 1 else sacked
      if sacked ≥ dupAckThresh ∧ item.sacked = false ∧ item.lost = false then
        let (below, total, lostOut) := lostLoop dupAckThresh below sacked (lostOut + item.size)
        ({ item with lost := true } :: below, total, lostOut)
      else
        let (below, total, lostOut) := lostLoop dupAckThresh below sacked lostOut
        (item :: below, total, lostOut)

def updateLostCount : Option TcpTxBuffer :=
  match buffer.highestSack.1, buffer.sentList with
  | .item id, head :: rest =>
      let lower := rest.takeWhile (fun item => item.id ≠ id)
      let upper := rest.dropWhile (fun item => item.id ≠ id)
      if head.id = id then finish buffer head rest 0 buffer.lostOut
      else
        match upper with
        | [] => none
        | highest :: others =>
            let (items, sacked, lostOut) :=
              lostLoop buffer.dupAckThresh (highest :: lower.reverse) 0 buffer.lostOut
            finish buffer head (items.reverse ++ others) sacked lostOut
  | _, _ => none
where
  finish (buffer : TcpTxBuffer) (head : TcpTxItem) (rest : List TcpTxItem)
      (sacked lostOut : UInt32) : Option TcpTxBuffer :=
    if sacked ≥ buffer.dupAckThresh ∧ head.lost = false then
      some { buffer with
        sentList := { head with lost := true } :: rest
        lostOut := lostOut + head.size }
    else some { buffer with sentList := head :: rest, lostOut }

def update (list : List SackBlock) : Option (TcpTxBuffer × UInt32) := do
  let (items, sacking, outside) ←
    sackBlocks buffer.firstByteSeq buffer.sentSize list buffer.sentList {
      lostOut := buffer.lostOut
      sackedOut := buffer.sackedOut
      bytesSacked := 0
      highestSack := buffer.highestSack }
  let marked := { buffer with
    sentList := items
    lostOut := sacking.lostOut
    sackedOut := sacking.sackedOut
    highestSack := sacking.highestSack }
  if outside then return (marked, sacking.bytesSacked)
  else
    let counted ←
      if sacking.bytesSacked > 0 then
        if marked.highestSack.1 = .pastEnd then none else marked.updateLostCount
      else some marked
    let head ← counted.sentList.head?
    if head.sacked = false ∧ counted.sackedOut + counted.lostOut ≤ counted.sentSize then
      return (counted, sacking.bytesSacked)
    else none

def resetRenoSack : TcpTxBuffer :=
  { buffer with
    sackedOut := 0
    sentList := buffer.sentList.map fun item => { item with sacked := false }
    highestSack := (.pastEnd, ⟨0⟩) }

def resetSentList : TcpTxBuffer :=
  { buffer with
    appList := (buffer.sentList.map fun item =>
      { item with retrans := false, sacked := false, lost := false }) ++ buffer.appList
    sentList := []
    sentSize := 0
    lostOut := 0
    retrans := 0
    sackedOut := 0
    highestSack := (.pastEnd, ⟨0⟩) }

def resetLastSegmentSent : TcpTxBuffer :=
  match buffer.sentList.getLast? with
  | none => buffer
  | some item =>
      { buffer with
        sentList := buffer.sentList.dropLast
        sentSize := buffer.sentSize - item.size
        retrans := if item.retrans then buffer.retrans - item.size else buffer.retrans
        appList := item :: buffer.appList }

/-- `SetSentListLost`, item by item: the number is `m_lostOut`. -/
def loseItem (resetSack : Bool) (item : TcpTxItem) (lostOut : UInt32) : TcpTxItem × UInt32 :=
  if resetSack then ({ item with sacked := false, lost := true, retrans := false }, lostOut)
  else if item.lost then ({ item with retrans := false }, lostOut + item.size)
  else if item.sacked = false then
    ({ item with lost := true, retrans := false }, lostOut + item.size)
  else ({ item with retrans := false }, lostOut)

def loseItems (resetSack : Bool) : List TcpTxItem → UInt32 → List TcpTxItem × UInt32
  | [], lostOut => ([], lostOut)
  | item :: rest, lostOut =>
      let (item, lostOut) := loseItem resetSack item lostOut
      let (rest, lostOut) := loseItems resetSack rest lostOut
      (item :: rest, lostOut)

def setSentListLost (resetSack : Bool) : Option TcpTxBuffer :=
  let reset :=
    if resetSack then
      { buffer with
        retrans := 0, sackedOut := 0, lostOut := buffer.sentSize, highestSack := (.pastEnd, ⟨0⟩) }
    else { buffer with retrans := 0, lostOut := 0 }
  let (sentList, lostOut) := loseItems resetSack reset.sentList reset.lostOut
  let lost := { reset with sentList, lostOut }
  if lost.sackedOut + lost.lostOut ≤ lost.sentSize then some lost else none

def deleteRetransmittedFlagFromHead : Option TcpTxBuffer :=
  if buffer.sentSize = 0 then some buffer
  else
    match buffer.sentList with
    | [] => none
    | head :: rest =>
        if head.retrans then
          some { buffer with
            sentList := { head with retrans := false } :: rest
            retrans := buffer.retrans - head.size }
        else some buffer

def bytesInFlight : Option UInt32 :=
  if buffer.sackedOut + buffer.lostOut ≤ buffer.sentSize then
    some (buffer.sentSize - (buffer.sackedOut + buffer.lostOut) + buffer.retrans)
  else none

end TcpTxBuffer

end FISim.Tcp
