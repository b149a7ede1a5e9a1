import FISim.Common
import FISim.Tcp.SequenceNumber

/-!
`TcpRxBuffer`: the segments that a receiver holds, by their sequence numbers.
-/

namespace FISim.Tcp

open SequenceNumber32

abbrev RxData := List (SequenceNumber32 × Packet)

abbrev SackBlock := SequenceNumber32 × SequenceNumber32

structure TcpRxBuffer where
  nextRxSeq : SequenceNumber32
  finSeq : SequenceNumber32 := ⟨0⟩
  gotFin : Bool := false
  size : UInt32 := 0
  maxBuffer : UInt32 := 32768
  availBytes : UInt32 := 0
  sackList : List SackBlock := []
  -- `std::map`, in the order of its keys
  data : RxData := []

def createFragment (packet : Packet) (start length : UInt32) : Option Packet :=
  if getSize packet < start + length then none
  else some ((packet.drop start.toNat).take length.toNat)

/-- `m_data[key] = packet`. -/
def RxData.store (key : SequenceNumber32) (packet : Packet) : RxData → RxData
  | [] => [(key, packet)]
  | i :: rest =>
      if key.less i.1 then (key, packet) :: i :: rest
      else if i.1.less key then i :: RxData.store key packet rest
      else (i.1, packet) :: rest

namespace TcpRxBuffer

variable (buffer : TcpRxBuffer)

def setFinSequence (s : SequenceNumber32) : TcpRxBuffer :=
  let marked := { buffer with gotFin := true, finSeq := s }
  if marked.nextRxSeq = marked.finSeq then { marked with nextRxSeq := marked.nextRxSeq.next }
  else marked

structure Overlaps where
  data : RxData
  size : UInt32
  headSeq : SequenceNumber32
  tailSeq : SequenceNumber32

/-- The loop of `Add` that removes the overlapped bytes. -/
def removeOverlaps : RxData → UInt32 → SequenceNumber32 → SequenceNumber32 → Overlaps
  | [], size, headSeq, tailSeq => { data := [], size, headSeq, tailSeq }
  | i :: rest, size, headSeq, tailSeq =>
      if i.1.lessEqual tailSeq then
        let lastByteSeq := i.1.plus (getSize i.2)
        if lastByteSeq.greater headSeq then
          if i.1.greater headSeq && lastByteSeq.less tailSeq then
            removeOverlaps rest (size - getSize i.2) headSeq tailSeq
          else
            let later := removeOverlaps rest size
              (if i.1.lessEqual headSeq then lastByteSeq else headSeq)
              (if lastByteSeq.greaterEqual tailSeq then i.1 else tailSeq)
            { later with data := i :: later.data }
        else
          let later := removeOverlaps rest size headSeq tailSeq
          { later with data := i :: later.data }
      else { data := i :: rest, size, headSeq, tailSeq }

/-- The first block that `begin` can be merged with: the merged block and the others. -/
def mergeOne (start : SackBlock) : List SackBlock → Option (Option (SackBlock × List SackBlock))
  | [] => some none
  | current :: rest =>
      if start.1 = current.2 then
        if current.1.less start.2 then some (some ((current.1, start.2), rest)) else none
      else if start.2 = current.1 then
        if start.1.less current.2 then some (some ((start.1, current.2), rest)) else none
      else (mergeOne start rest).map (Option.map fun merged => (merged.1, current :: merged.2))

def mergeBlocks (start : SackBlock) : ℕ → List SackBlock → Option (List SackBlock)
  | 0, _ => none
  | fuel + 1, others => do
      match ← mergeOne start others with
      | none => return start :: others
      | some (merged, left) => mergeBlocks merged fuel left

def updateSackList (head tail : SequenceNumber32) : Option TcpRxBuffer :=
  if head.greater buffer.nextRxSeq then do
    let merged ← mergeBlocks (head, tail) (buffer.sackList.length + 1) buffer.sackList
    return { buffer with sackList := if merged.length > 4 then merged.dropLast else merged }
  else none

/-- `Add` generates a SACK block for a segment that does not come next. -/
def reportSack (head tail : SequenceNumber32) : Option TcpRxBuffer :=
  if head.greater buffer.nextRxSeq then buffer.updateSackList head tail else some buffer

def clearSackList (seq : SequenceNumber32) : List SackBlock → Option (List SackBlock)
  | [] => some []
  | block :: rest =>
      if block.1.less block.2 then do
        let kept ← clearSackList seq rest
        return if block.2.lessEqual seq then kept else block :: kept
      else none

/-- The loop of `Add` that moves `m_nextRxSeq`. -/
def advance : RxData → TcpRxBuffer → Option TcpRxBuffer
  | [], buffer => some buffer
  | i :: rest, buffer =>
      if i.1.less buffer.nextRxSeq then advance rest buffer
      else if i.1.greater buffer.nextRxSeq then some buffer
      else do
        let nextRxSeq := i.1.plus (getSize i.2)
        let sackList ← clearSackList nextRxSeq buffer.sackList
        advance rest { buffer with
          nextRxSeq, availBytes := buffer.availBytes + getSize i.2, sackList }

/-- `Add` accounts for the FIN. -/
def countFin : TcpRxBuffer :=
  if buffer.gotFin && buffer.nextRxSeq = buffer.finSeq then
    { buffer with nextRxSeq := buffer.nextRxSeq.next }
  else buffer

def trimToWindow (headSeq tailSeq : SequenceNumber32) : SequenceNumber32 × SequenceNumber32 :=
  let headSeq := if headSeq.less buffer.nextRxSeq then buffer.nextRxSeq else headSeq
  match buffer.data with
  | [] => (headSeq, tailSeq)
  | first :: _ =>
      let maxSeq := first.1.plus buffer.maxBuffer
      let tailSeq := if maxSeq.less tailSeq then maxSeq else tailSeq
      (if tailSeq.less headSeq then tailSeq else headSeq, tailSeq)

/-- The end of `Add`, for a segment of which `trimmed` says what is left. -/
def insert (p : Packet) (sequenceNumber : SequenceNumber32) (trimmed : Overlaps) :
    Option TcpRxBuffer := do
  let start := (trimmed.headSeq.minus sequenceNumber).toUInt32
  let length := (trimmed.tailSeq.minus trimmed.headSeq).toUInt32
  let fragment ← createFragment p start length
  if length ≠ getSize fragment then none
  else if trimmed.data.any fun i => i.1 = trimmed.headSeq then none
  else
    let stored := { buffer with data := RxData.store trimmed.headSeq fragment trimmed.data }
    let reported ← stored.reportSack trimmed.headSeq trimmed.tailSeq
    let moved ← advance reported.data { reported with size := trimmed.size + getSize fragment }
    return moved.countFin

def add (p : Packet) (sequenceNumber : SequenceNumber32) : Option (TcpRxBuffer × Bool) :=
  let window := buffer.trimToWindow sequenceNumber (sequenceNumber.plus (getSize p))
  let trimmed := removeOverlaps buffer.data buffer.size window.1 window.2
  if trimmed.headSeq.greaterEqual trimmed.tailSeq then
    some ({ buffer with data := trimmed.data, size := trimmed.size }, false)
  else (buffer.insert p sequenceNumber trimmed).map fun added => (added, true)

/-- The loop of `Extract`. -/
def extractLoop : ℕ → UInt32 → Packet → TcpRxBuffer → Option (TcpRxBuffer × Packet)
  | 0, _, _, _ => none
  | fuel + 1, extractSize, outPkt, buffer =>
      if extractSize = 0 then some (buffer, outPkt)
      else
        match buffer.data with
        | [] => none
        | i :: rest =>
            if i.1.lessEqual buffer.nextRxSeq then
              let pktSize := getSize i.2
              if pktSize ≤ extractSize then
                extractLoop fuel (extractSize - pktSize) (outPkt ++ i.2) { buffer with
                  data := rest
                  size := buffer.size - pktSize
                  availBytes := buffer.availBytes - pktSize }
              else do
                let front ← createFragment i.2 0 extractSize
                let back ← createFragment i.2 extractSize (pktSize - extractSize)
                let stored := RxData.store (i.1.plus extractSize) back (i :: rest)
                extractLoop fuel 0 (outPkt ++ front) { buffer with
                  data := stored.filter fun held => held.1 ≠ i.1
                  size := buffer.size - extractSize
                  availBytes := buffer.availBytes - extractSize }
            else none

def extract (maxSize : UInt32) : Option (TcpRxBuffer × Option Packet) :=
  let extractSize := min maxSize buffer.availBytes
  if extractSize = 0 then some (buffer, none)
  else if buffer.data.isEmpty then none
  else do
    let (left, outPkt) ← extractLoop (buffer.data.length + 2) extractSize [] buffer
    return (left, if getSize outPkt = 0 then none else some outPkt)

end TcpRxBuffer

end FISim.Tcp
