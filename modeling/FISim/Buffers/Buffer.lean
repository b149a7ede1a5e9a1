import FISim.Buffers.Storage

/-!
`Buffer` and `Buffer::Iterator`.  The offsets of a buffer are virtual: they count
the bytes of its zero area, which no block holds.
-/

namespace FISim.Buffers

structure Iterator where
  zeroStart : UInt32
  zeroEnd : UInt32
  dataStart : UInt32
  dataEnd : UInt32
  current : UInt32
  data : ℕ
  deriving DecidableEq, Repr

namespace Iterator

def next (it : Iterator) (delta : UInt32) : Option Iterator :=
  if it.current + delta ≤ it.dataEnd then some { it with current := it.current + delta } else none

def prev (it : Iterator) (delta : UInt32) : Option Iterator :=
  if delta ≤ it.current then some { it with current := it.current - delta } else none

def checkNoZero (it : Iterator) (start stop : UInt32) : Bool :=
  !(start < it.dataStart || stop > it.dataEnd ||
    (stop > it.zeroStart && start < it.zeroEnd && it.zeroEnd ≠ it.zeroStart && start ≠ stop))

def check (it : Iterator) (index : UInt32) : Bool :=
  it.dataStart ≤ index && !(it.zeroStart ≤ index && index < it.zeroEnd) && index ≤ it.dataEnd

/-- The bytes go to the iterator's place in the block, which is behind the zero area unless the
place is `early`. -/
def put (mem : Memory) (it : Iterator) (allowed early : Bool) (bytes : List UInt8) :
    Option (Memory × Iterator) :=
  let index := if early then it.current else it.current - (it.zeroEnd - it.zeroStart)
  if allowed then do
    let mem ← mem.write it.data index.toNat bytes
    return (mem, { it with current := it.current + UInt32.ofNat bytes.length })
  else none

def writeU8 (mem : Memory) (it : Iterator) (data : UInt8) : Option (Memory × Iterator) :=
  it.put mem (it.check it.current) (it.current < it.zeroStart) [data]

def writeU8s (mem : Memory) (it : Iterator) (data : UInt8) (len : UInt32) :
    Option (Memory × Iterator) :=
  it.put mem (it.checkNoZero it.current (it.current + len)) (it.current ≤ it.zeroStart)
    (List.replicate len.toNat data)

def writeHtonU16 (mem : Memory) (it : Iterator) (data : UInt16) : Option (Memory × Iterator) :=
  it.put mem (it.checkNoZero it.current (it.current + 2)) (it.current + 2 ≤ it.zeroStart)
    (FISim.writeHtonU16 data)

def writeHtonU32 (mem : Memory) (it : Iterator) (data : UInt32) : Option (Memory × Iterator) :=
  it.put mem (it.checkNoZero it.current (it.current + 4)) (it.current + 4 ≤ it.zeroStart)
    (FISim.writeHtonU32 data)

-- The check is given the size for the end of the bytes.
def write (mem : Memory) (it : Iterator) (buffer : List UInt8) : Option (Memory × Iterator) :=
  it.put mem (it.checkNoZero it.current (UInt32.ofNat buffer.length)) (it.current ≤ it.zeroStart)
    buffer

-- Bytes that are copied from another buffer go to `m_data[m_current]`.
def copy (mem : Memory) (it : Iterator) (bytes : List UInt8) : Option (Memory × Iterator) :=
  it.put mem true true bytes

-- How many of `size` bytes come before the limit.
def run (it : Iterator) (size limit : UInt32) : UInt32 :=
  if it.current ≤ limit then min size (limit - it.current) else 0

def advance (it : Iterator) (delta : UInt32) : Iterator :=
  { it with current := it.current + delta }

def writeRange (mem : Memory) (it start stop : Iterator) : Option (Memory × Iterator) := do
  guard (start.data = stop.data ∧ start.current ≤ stop.current ∧
    start.zeroStart = stop.zeroStart ∧ start.zeroEnd = stop.zeroEnd ∧ it.data ≠ start.data)
  let size := stop.current - start.current
  guard (it.checkNoZero it.current (it.current + size))
  let toCopy := start.run size start.zeroStart
  let bytes ← mem.read start.data start.current.toNat toCopy.toNat
  let (mem, it) ← it.copy mem bytes
  let start := start.advance toCopy
  let size := size - toCopy
  let toCopy := start.run size start.zeroEnd
  let (mem, it) ← it.copy mem (List.replicate toCopy.toNat 0)
  let start := start.advance toCopy
  let size := size - toCopy
  let toCopy := min size (start.dataEnd - start.current)
  let bytes ← mem.read start.data (start.current - (start.zeroEnd - start.zeroStart)).toNat
    toCopy.toNat
  it.copy mem bytes

def peekU8 (mem : Memory) (it : Iterator) : Option UInt8 := do
  guard (it.dataStart ≤ it.current ∧ it.current < it.dataEnd)
  if it.current < it.zeroStart then
    (← mem.read it.data it.current.toNat 1)[0]?
  else if it.current < it.zeroEnd then
    return 0
  else
    (← mem.read it.data (it.current - (it.zeroEnd - it.zeroStart)).toNat 1)[0]?

def readU8 (mem : Memory) (it : Iterator) : Option (UInt8 × Iterator) := do
  let ret ← it.peekU8 mem
  return (ret, { it with current := it.current + 1 })

def slowReadNtoh (mem : Memory) (it : Iterator) : ℕ → Option (List UInt8 × Iterator)
  | 0 => some ([], it)
  | count + 1 => do
      let (byte, it) ← it.readU8 mem
      let (bytes, it) ← it.slowReadNtoh mem count
      return (byte :: bytes, it)

-- The bytes of `ReadNtohU16` and `ReadNtohU32`, in network order.
def readNtoh (mem : Memory) (it : Iterator) (count : ℕ) : Option (List UInt8 × Iterator) :=
  let after := it.current + UInt32.ofNat count
  if after ≤ it.zeroStart then do
    let bytes ← mem.read it.data it.current.toNat count
    return (bytes, { it with current := after })
  else if it.zeroEnd ≤ it.current then do
    let bytes ← mem.read it.data (it.current - (it.zeroEnd - it.zeroStart)).toNat count
    return (bytes, { it with current := after })
  else it.slowReadNtoh mem count

def readNtohU16 (mem : Memory) (it : Iterator) : Option (UInt16 × Iterator) := do
  let (bytes, it) ← it.readNtoh mem 2
  return (UInt16.ofNat (BigEndian.ofBytes bytes), it)

def readNtohU32 (mem : Memory) (it : Iterator) : Option (UInt32 × Iterator) := do
  let (bytes, it) ← it.readNtoh mem 4
  return (UInt32.ofNat (BigEndian.ofBytes bytes), it)

end Iterator

structure Buffer where
  data : ℕ
  maxZeroAreaStart : UInt32
  zeroAreaStart : UInt32
  zeroAreaEnd : UInt32
  start : UInt32
  endOffset : UInt32
  deriving DecidableEq, Repr

namespace Buffer

def getSize (b : Buffer) : UInt32 := b.endOffset - b.start

def zeroSize (b : Buffer) : UInt32 := b.zeroAreaEnd - b.zeroAreaStart

def getInternalSize (b : Buffer) : UInt32 := b.zeroAreaStart - b.start + b.endOffset - b.zeroAreaEnd

def getInternalEnd (b : Buffer) : UInt32 := b.endOffset - b.zeroSize

def atBegin (b : Buffer) : Iterator where
  zeroStart := b.zeroAreaStart
  zeroEnd := b.zeroAreaEnd
  dataStart := b.start
  dataEnd := b.endOffset
  current := b.start
  data := b.data

def atEnd (b : Buffer) : Iterator := { b.atBegin with current := b.endOffset }

def noteZeroArea (b : Buffer) : Buffer :=
  { b with maxZeroAreaStart := max b.maxZeroAreaStart b.zeroAreaStart }

def initializeData (mem : Memory) (zeroSize : UInt32) : Option (Memory × Buffer) := do
  let (mem, data) ← mem.create 0
  let start := min (mem.data data).size mem.recommendedStart
  let b : Buffer := {
    data
    maxZeroAreaStart := start
    zeroAreaStart := start
    zeroAreaEnd := start + zeroSize
    start
    endOffset := start + zeroSize }
  return ((mem.setDirtyStart data b.start).setDirtyEnd data b.endOffset, b)

def copy (mem : Memory) (o : Buffer) : Memory × Buffer :=
  (mem.share o.data, { o with maxZeroAreaStart := o.zeroAreaStart })

def assign (mem : Memory) (b o : Buffer) : Memory × Buffer :=
  let mem := if b.data ≠ o.data then (mem.release b.data).share o.data else mem
  (mem.recommend b.maxZeroAreaStart, o)

def destroy (mem : Memory) (b : Buffer) : Memory :=
  (mem.recommend b.maxZeroAreaStart).release b.data

def roomAtStart (mem : Memory) (b : Buffer) (start : UInt32) : Bool :=
  start ≤ b.start && !(1 < (mem.data b.data).count && (mem.data b.data).dirtyStart < b.start)

def roomAtEnd (mem : Memory) (b : Buffer) (count : UInt32) : Bool :=
  b.getInternalEnd + count ≤ (mem.data b.data).size &&
    !(1 < (mem.data b.data).count && b.endOffset < (mem.data b.data).dirtyEnd)

/-- The bytes of the buffer in a block of its own, from an offset on. -/
def relocate (mem : Memory) (b : Buffer) (newSize offset : UInt32) : Option (Memory × Buffer) := do
  let (mem, data) ← mem.create newSize
  let bytes ← mem.read b.data b.start.toNat b.getInternalSize.toNat
  let mem ← mem.write data offset.toNat bytes
  let delta := offset - b.start
  return (mem.release b.data, { b with
    data
    start := b.start + delta
    zeroAreaStart := b.zeroAreaStart + delta
    zeroAreaEnd := b.zeroAreaEnd + delta
    endOffset := b.endOffset + delta })

def addAtStart (mem : Memory) (b : Buffer) (start : UInt32) : Option (Memory × Buffer) :=
  if b.roomAtStart mem start then do
    guard ((mem.data b.data).count = 1 ∨ b.start = (mem.data b.data).dirtyStart)
    let b := { b with start := b.start - start }
    return (mem.setDirtyStart b.data b.start, b.noteZeroArea)
  else do
    let (mem, b) ← b.relocate mem (b.getInternalSize + start) start
    let b := { b with start := b.start - start }
    return ((mem.setDirtyStart b.data b.start).setDirtyEnd b.data b.endOffset, b.noteZeroArea)

def addAtEnd (mem : Memory) (b : Buffer) (count : UInt32) : Option (Memory × Buffer) :=
  if b.roomAtEnd mem count then do
    guard ((mem.data b.data).count = 1 ∨ b.endOffset = (mem.data b.data).dirtyEnd)
    let b := { b with endOffset := b.endOffset + count }
    return (mem.setDirtyEnd b.data b.endOffset, b.noteZeroArea)
  else do
    let (mem, b) ← b.relocate mem (b.getInternalSize + count) 0
    let b := { b with endOffset := b.endOffset + count }
    return ((mem.setDirtyStart b.data b.start).setDirtyEnd b.data b.endOffset, b.noteZeroArea)

def removeAtStart (b : Buffer) (start : UInt32) : Buffer :=
  let newStart := b.start + start
  if newStart ≤ b.zeroAreaStart then { b with start := newStart }.noteZeroArea
  else if newStart ≤ b.zeroAreaEnd then
    let delta := newStart - b.zeroAreaStart
    { b with
      start := b.zeroAreaStart
      zeroAreaEnd := b.zeroAreaEnd - delta
      endOffset := b.endOffset - delta }.noteZeroArea
  else if newStart ≤ b.endOffset then
    { b with
      start := newStart - b.zeroSize
      endOffset := b.endOffset - b.zeroSize
      zeroAreaStart := newStart - b.zeroSize
      zeroAreaEnd := newStart - b.zeroSize }.noteZeroArea
  else
    { b with
      endOffset := b.getInternalEnd
      start := b.getInternalEnd
      zeroAreaEnd := b.getInternalEnd
      zeroAreaStart := b.getInternalEnd }.noteZeroArea

def removeAtEnd (b : Buffer) (count : UInt32) : Buffer :=
  let newEnd := b.endOffset - min count (b.endOffset - b.start)
  if b.zeroAreaEnd < newEnd then { b with endOffset := newEnd }.noteZeroArea
  else if b.zeroAreaStart < newEnd then
    { b with endOffset := newEnd, zeroAreaEnd := newEnd }.noteZeroArea
  else if b.start < newEnd then
    { b with endOffset := newEnd, zeroAreaEnd := newEnd, zeroAreaStart := newEnd }.noteZeroArea
  else
    { b with endOffset := b.start, zeroAreaEnd := b.start, zeroAreaStart := b.start }.noteZeroArea

def createFragment (mem : Memory) (b : Buffer) (start length : UInt32) : Memory × Buffer :=
  let (mem, tmp) := b.copy mem
  (mem, (tmp.removeAtStart start).removeAtEnd (b.getSize - (start + length)))

def createFullCopy (mem : Memory) (b : Buffer) : Option (Memory × Buffer) :=
  if b.zeroSize ≠ 0 then do
    let (mem, tmp) ← initializeData mem 0
    let (mem, tmp) ← tmp.addAtStart mem b.zeroSize
    let (mem, _) ← tmp.atBegin.writeU8s mem 0 b.zeroSize
    let dataStart := b.zeroAreaStart - b.start
    let (mem, tmp) ← tmp.addAtStart mem dataStart
    let bytes ← mem.read b.data b.start.toNat dataStart.toNat
    let (mem, _) ← tmp.atBegin.write mem bytes
    let dataEnd := b.endOffset - b.zeroAreaEnd
    let (mem, tmp) ← tmp.addAtEnd mem dataEnd
    let i ← tmp.atEnd.prev dataEnd
    let bytes ← mem.read b.data b.zeroAreaStart.toNat dataEnd.toNat
    let (mem, _) ← i.write mem bytes
    return (mem, tmp)
  else some (b.copy mem)

/-- The zero area at the front of the other buffer lengthens the zero area of this one. -/
def adjacentZeroAreas (mem : Memory) (b o : Buffer) : Bool :=
  (mem.data b.data).count = 1 &&
    (b.endOffset = b.zeroAreaEnd || b.zeroAreaStart = b.zeroAreaEnd) &&
    b.endOffset = (mem.data b.data).dirtyEnd && o.start = o.zeroAreaStart && 0 < o.zeroSize

def addBufferAtEnd (mem : Memory) (b o : Buffer) : Option (Memory × Buffer) :=
  if b.adjacentZeroAreas mem o then do
    let b := if b.zeroAreaStart = b.zeroAreaEnd then { b with zeroAreaStart := b.endOffset } else b
    let b := { b with
      zeroAreaEnd := b.endOffset + o.zeroSize
      endOffset := b.endOffset + o.zeroSize }
    let mem := mem.setDirtyEnd b.data b.zeroAreaEnd
    let endData := o.endOffset - o.zeroAreaEnd
    let (mem, b) ← b.addAtEnd mem endData
    let dst ← b.atEnd.prev endData
    let src ← o.atEnd.prev endData
    let (mem, _) ← dst.writeRange mem src o.atEnd
    return (mem, b)
  else do
    let (mem, full) ← b.createFullCopy mem
    let (mem, b) := b.assign mem full
    let mem := full.destroy mem
    let (mem, b) ← b.addAtEnd mem o.getSize
    let destStart ← b.atEnd.prev o.getSize
    let (mem, _) ← destStart.writeRange mem o.atBegin o.atEnd
    return (mem, b)

end Buffer

end FISim.Buffers
