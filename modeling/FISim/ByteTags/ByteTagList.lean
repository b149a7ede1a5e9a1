import FISim.Lib.SharedLogs
import FISim.PacketTags.TagCodecs

/-!
`ByteTagList`: the tags of ranges of bytes, one behind the other in a block that
lists share.  Offsets are relative to an adjustment, and a list only clips its
tags when bytes are added at one of its ends.
-/

namespace FISim.ByteTags

open Cells SharedLogs

-- What a signed 32-bit integer keeps of a result.
def int32 (value : ℤ) : ℤ := value.bmod (2 ^ 32)

def int32Max : ℤ := 2 ^ 31 - 1
def int32Min : ℤ := -2 ^ 31

-- `ByteTagListData` by address; the last block of the free list comes first.
@[ext]
structure Memory where
  data : Heap UInt8
  next : ℕ := 0
  freeList : List ℕ := []
  maxSize : ℕ := 0

namespace Memory

def modify (mem : Memory) (address : ℕ) (change : Block UInt8 → Block UInt8) : Memory :=
  { mem with data := Function.update mem.data address (change (mem.data address)) }

def allocate (mem : Memory) (size : ℕ) : Memory × ℕ :=
  match mem.freeList.dropWhile fun address => (mem.data address).size < size with
  | [] => ({ mem.modify mem.next fun data => { data with size, count := 1, dirty := 0 } with
      next := mem.next + 1
      freeList := [] }, mem.next)
  | address :: rest => ({ mem.modify address fun data => { data with count := 1, dirty := 0 } with
      freeList := rest }, address)

def deallocate (mem : Memory) : Option ℕ → Memory
  | none => mem
  | some address =>
      let maxSize := max mem.maxSize (mem.data address).size
      let mem := { mem with maxSize }.modify address fun data => { data with count := data.count - 1 }
      if (mem.data address).count = 0 then
        if 1000 < mem.freeList.length ∨ (mem.data address).size < mem.maxSize then mem
        else { mem with freeList := address :: mem.freeList }
      else mem

-- `m_data->count++`, where `m_data` may be null.
def share (mem : Memory) : Option ℕ → Memory
  | none => mem
  | some address => mem.modify address fun data => { data with count := data.count + 1 }

end Memory

/-- A range of the bytes of a block, which is written and read from its front on. -/
structure TagBuffer where
  data : ℕ
  current : ℕ
  stop : ℕ
  deriving DecidableEq, Repr

namespace TagBuffer

def write (mem : Memory) (tag : TagBuffer) (buffer : List UInt8) : Option (Memory × TagBuffer) := do
  guard (tag.current + buffer.length ≤ tag.stop)
  let mem := mem.modify tag.data fun data =>
    { data with data := patch data.data tag.current buffer }
  return (mem, { tag with current := tag.current + buffer.length })

def writeU32 (mem : Memory) (tag : TagBuffer) (data : UInt32) : Option (Memory × TagBuffer) :=
  tag.write mem (FISim.TagBuffer.writeU32 data)

def read (mem : Memory) (tag : TagBuffer) (size : ℕ) : Option (List UInt8 × TagBuffer) := do
  guard (tag.current + size ≤ tag.stop)
  return (slice (mem.data tag.data).data tag.current size, { tag with current := tag.current + size })

def readU32 (mem : Memory) (tag : TagBuffer) : Option (UInt32 × TagBuffer) := do
  let (bytes, tag) ← tag.read mem 4
  let (data, _) ← FISim.TagBuffer.readU32 bytes
  return (data, tag)

def copyFrom (mem : Memory) (tag o : TagBuffer) : Option (Memory × TagBuffer) := do
  guard (o.current ≤ o.stop)
  tag.write mem (slice (mem.data o.data).data o.current (o.stop - o.current))

def trimAtEnd (tag : TagBuffer) (trim : ℕ) : Option TagBuffer := do
  guard (tag.current + trim ≤ tag.stop)
  return { tag with stop := tag.stop - trim }

end TagBuffer

-- The offsets are relative to the virtual byte buffer.
structure Item where
  tid : UInt16
  size : UInt32
  start : ℤ
  stop : ℤ
  buf : TagBuffer
  deriving DecidableEq, Repr

-- `m_end` is `stop`.
structure Iterator where
  data : ℕ := 0
  current : ℕ := 0
  stop : ℕ := 0
  offsetStart : ℤ
  offsetEnd : ℤ
  adjustment : ℤ
  nextTid : UInt32 := 0
  nextSize : UInt32 := 0
  nextStart : ℤ := 0
  nextEnd : ℤ := 0
  deriving DecidableEq, Repr

namespace Iterator

def hasNext (it : Iterator) : Bool := it.current < it.stop

def tagBuffer (it : Iterator) : TagBuffer := ⟨it.data, it.current, it.stop⟩

-- `4 + 4 + 4 + 4 + m_nextSize`
def skip (it : Iterator) : Iterator := { it with current := it.current + (16 + it.nextSize).toNat }

def readNext (mem : Memory) (it : Iterator) : Option Iterator := do
  let (nextTid, buf) ← it.tagBuffer.readU32 mem
  let (nextSize, buf) ← buf.readU32 mem
  let (start, buf) ← buf.readU32 mem
  let (stop, _) ← buf.readU32 mem
  return { it with
    nextTid
    nextSize
    nextStart := int32 (start.toNat + it.adjustment)
    nextEnd := int32 (stop.toNat + it.adjustment) }

def prepareForNext (mem : Memory) : ℕ → Iterator → Option Iterator
  | 0, _ => none
  | turns + 1, it =>
      if it.hasNext then do
        let it ← it.readNext mem
        if it.offsetEnd ≤ it.nextStart ∨ it.nextEnd ≤ it.offsetStart then
          prepareForNext mem turns it.skip
        else return it
      else some it

-- Every tag takes bytes.
def fuel (it : Iterator) : ℕ := it.stop + 1

def next (mem : Memory) (it : Iterator) : Option (Item × Iterator) := do
  guard it.hasNext
  let buf : TagBuffer := { it.tagBuffer with current := it.current + 16 }
  let after := it.skip
  let buf ← buf.trimAtEnd (it.stop - after.current)
  let item : Item := {
    tid := it.nextTid.toUInt16
    size := it.nextSize
    start := max it.nextStart it.offsetStart
    stop := min it.nextEnd it.offsetEnd
    buf }
  let it ← prepareForNext mem it.fuel after
  return (item, it)

/-- `while (i.HasNext())`, for a body that changes the memory. -/
def forEach {State : Type} (memory : State → Memory) (body : Item → State → Option State) :
    ℕ → Iterator → State → Option State
  | 0, _, _ => none
  | turns + 1, it, state =>
      if it.hasNext then do
        let (item, it) ← it.next (memory state)
        let state ← body item state
        forEach memory body turns it state
      else some state

end Iterator

structure ByteTagList where
  minStart : ℤ := int32Max
  maxEnd : ℤ := int32Min
  adjustment : ℤ := 0
  used : ℕ := 0
  data : Option ℕ := none
  deriving DecidableEq, Repr

namespace ByteTagList

def adjust (list : ByteTagList) (adjustment : ℤ) : ByteTagList :=
  { list with adjustment := int32 (list.adjustment + adjustment) }

def copy (mem : Memory) (o : ByteTagList) : Memory × ByteTagList := (mem.share o.data, o)

def assign (mem : Memory) (list o : ByteTagList) : Memory × ByteTagList :=
  ((mem.deallocate list.data).share o.data, o)

def destroy (mem : Memory) (list : ByteTagList) : Memory := mem.deallocate list.data

def removeAll (mem : Memory) (list : ByteTagList) : Memory × ByteTagList :=
  (mem.deallocate list.data, {})

/-- The block that a tag is added to: the list's, if its end is free there and has room. -/
def reserve (mem : Memory) (list : ByteTagList) (spaceNeeded : ℕ) : Memory × ℕ :=
  match list.data with
  | none => mem.allocate spaceNeeded
  | some data =>
      if (mem.data data).size < spaceNeeded ∨
          (mem.data data).count ≠ 1 ∧ (mem.data data).dirty ≠ list.used then
        let (mem, newData) := mem.allocate spaceNeeded
        let mem := mem.modify newData fun block =>
          { block with data := patch block.data 0 (slice (mem.data data).data 0 list.used) }
        (mem.deallocate (some data), newData)
      else (mem, data)

def add (mem : Memory) (list : ByteTagList) (tid : UInt16) (bufferSize : UInt32) (start stop : ℤ) :
    Option (Memory × ByteTagList × TagBuffer) := do
  let spaceNeeded := (UInt32.ofNat list.used + bufferSize + 4 + 4 + 4 + 4).toNat
  guard (list.used ≤ spaceNeeded)
  let (mem, data) := list.reserve mem spaceNeeded
  let used := if list.data = none then 0 else list.used
  let (mem, tag) ← TagBuffer.writeU32 mem ⟨data, used, spaceNeeded⟩ tid.toUInt32
  let (mem, tag) ← tag.writeU32 mem bufferSize
  let start := int32 (start - list.adjustment)
  let stop := int32 (stop - list.adjustment)
  let (mem, tag) ← tag.writeU32 mem (UInt32.ofInt start)
  let (mem, tag) ← tag.writeU32 mem (UInt32.ofInt stop)
  let list := { list with
    minStart := if start < list.minStart then start else list.minStart
    maxEnd := if list.maxEnd < stop then stop else list.maxEnd
    used := spaceNeeded
    data := some data }
  return (mem.modify data fun block => { block with dirty := spaceNeeded }, list, tag)

def beginAt (mem : Memory) (list : ByteTagList) (offsetStart offsetEnd : ℤ) : Option Iterator :=
  let it : Iterator := match list.data with
    | none => { offsetStart, offsetEnd, adjustment := 0 }
    | some data => { data, stop := list.used, offsetStart, offsetEnd, adjustment := list.adjustment }
  it.prepareForNext mem it.fuel

def beginAll (mem : Memory) (list : ByteTagList) : Option Iterator := list.beginAt mem 0 int32Max

def addItem (change : ℤ → ℤ → Option (ℤ × ℤ)) (item : Item) (state : Memory × ByteTagList) :
    Option (Memory × ByteTagList) :=
  match change item.start item.stop with
  | none => some state
  | some (start, stop) => do
      let (mem, list, buf) ← state.2.add state.1 item.tid item.size start stop
      let (mem, _) ← buf.copyFrom mem item.buf
      return (mem, list)

/-- Adds what the change leaves of the tags of one list to another. -/
def addItems (change : ℤ → ℤ → Option (ℤ × ℤ)) (mem : Memory) (list o : ByteTagList) :
    Option (Memory × ByteTagList) := do
  let it ← o.beginAll mem
  it.forEach Prod.fst (addItem change) it.fuel (mem, list)

def addList (mem : Memory) (list o : ByteTagList) : Option (Memory × ByteTagList) :=
  list.addItems (fun start stop => some (start, stop)) mem o

/-- `*this = list`, for a list that goes out of scope: what `m_minStart` or `m_maxEnd` has become
meanwhile is overwritten. -/
def replaceBy (mem : Memory) (list other : ByteTagList) : Memory × ByteTagList :=
  let (mem, list) := list.assign mem other
  (other.destroy mem, list)

def cutAtEnd (appendOffset start stop : ℤ) : Option (ℤ × ℤ) :=
  if appendOffset ≤ start then none
  else some (start, if appendOffset < stop then appendOffset else stop)

def addAtEnd (mem : Memory) (list : ByteTagList) (appendOffset : ℤ) :
    Option (Memory × ByteTagList) :=
  if list.maxEnd ≤ int32 (appendOffset - list.adjustment) then some (mem, list)
  else do
    let (mem, other) ← addItems (cutAtEnd appendOffset) mem {} list
    return list.replaceBy mem other

def cutAtStart (prependOffset start stop : ℤ) : Option (ℤ × ℤ) :=
  if stop ≤ prependOffset then none
  else some (if start < prependOffset then prependOffset else start, stop)

def addAtStart (mem : Memory) (list : ByteTagList) (prependOffset : ℤ) :
    Option (Memory × ByteTagList) :=
  if int32 (prependOffset - list.adjustment) ≤ list.minStart then some (mem, list)
  else do
    let (mem, other) ← addItems (cutAtStart prependOffset) mem {} list
    return list.replaceBy mem other

end ByteTagList

end FISim.ByteTags
