import FISim.ByteTags.Spans
import FISim.Lib.Transition

/-!
What the operations of `Packet` do to its byte tags, for a family of packets that
are copied and cut from one another, and the same operations on bytes that carry
their tags themselves.
-/

namespace FISim.ByteTags

/-- A packet by its byte tags and the size of its buffer. -/
structure Packet where
  size : ℕ
  tags : ByteTagList
  deriving DecidableEq, Repr

inductive Edit
  | addHeader (size : ℕ)
  | removeHeader (deserialized : ℕ)
  | addTrailer (size : ℕ)
  | removeTrailer (deserialized : ℕ)
  | addPaddingAtEnd (size : ℕ)
  | removeAtStart (size : ℕ)
  | removeAtEnd (size : ℕ)
  | addByteTag (tag : Tag)
  | addByteTagTo (tag : Tag) (start stop : ℕ)
  | removeAllByteTags
  deriving DecidableEq, Repr

namespace Packet

def create (size : ℕ) : Packet := ⟨size, {}⟩

def copy (mem : Memory) (o : Packet) : Memory × Packet :=
  let (mem, tags) := o.tags.copy mem
  (mem, ⟨o.size, tags⟩)

def assign (mem : Memory) (p o : Packet) : Memory × Packet :=
  let (mem, tags) := p.tags.assign mem o.tags
  (mem, ⟨o.size, tags⟩)

def destroy (mem : Memory) (p : Packet) : Memory := p.tags.destroy mem

def createFragment (mem : Memory) (p : Packet) (start length : ℕ) : Option (Memory × Packet) := do
  let (mem, byteTagList) := p.tags.copy mem
  let byteTagList := byteTagList.adjust (int32 (-start))
  guard (start + length ≤ p.size)
  let (mem, tags) := byteTagList.copy mem
  return (byteTagList.destroy mem, ⟨length, tags⟩)

def addHeader (mem : Memory) (p : Packet) (size : ℕ) : Option (Memory × Packet) := do
  let tags := p.tags.adjust (int32 size)
  let (mem, tags) ← tags.addAtStart mem (int32 size)
  return (mem, ⟨p.size + size, tags⟩)

def removeAtStart (p : Packet) (size : ℕ) : Packet :=
  ⟨p.size - size, p.tags.adjust (int32 (-size))⟩

def removeHeader (p : Packet) (deserialized : ℕ) : Packet := p.removeAtStart deserialized

def addPaddingAtEnd (mem : Memory) (p : Packet) (size : ℕ) : Option (Memory × Packet) := do
  let (mem, tags) ← p.tags.addAtEnd mem (int32 p.size)
  return (mem, ⟨p.size + size, tags⟩)

def addTrailer (mem : Memory) (p : Packet) (size : ℕ) : Option (Memory × Packet) :=
  p.addPaddingAtEnd mem size

-- The tags of the bytes that go stay behind the end.
def removeAtEnd (p : Packet) (size : ℕ) : Packet := { p with size := p.size - size }

def removeTrailer (p : Packet) (deserialized : ℕ) : Packet := p.removeAtEnd deserialized

def addAtEnd (mem : Memory) (p o : Packet) : Option (Memory × Packet) := do
  let (mem, tags) ← p.tags.addAtEnd mem (int32 p.size)
  let (mem, copy) := o.tags.copy mem
  let (mem, copy) ← copy.addAtStart mem 0
  let copy := copy.adjust (int32 p.size)
  let (mem, tags) ← tags.addList mem copy
  return (copy.destroy mem, ⟨p.size + o.size, tags⟩)

def addByteTagTo (mem : Memory) (p : Packet) (tag : Tag) (start stop : ℕ) :
    Option (Memory × Packet) := do
  guard (¬ stop < start)
  let (mem, tags, buffer) ← p.tags.add mem tag.tid (UInt32.ofNat tag.payload.length)
    (int32 start) (int32 stop)
  let (mem, _) ← buffer.write mem tag.payload
  return (mem, { p with tags })

def addByteTag (mem : Memory) (p : Packet) (tag : Tag) : Option (Memory × Packet) := do
  let (mem, tags, buffer) ← p.tags.add mem tag.tid (UInt32.ofNat tag.payload.length)
    0 (int32 p.size)
  let (mem, _) ← buffer.write mem tag.payload
  return (mem, { p with tags })

def removeAllByteTags (mem : Memory) (p : Packet) : Memory × Packet :=
  let (mem, tags) := p.tags.removeAll mem
  (mem, { p with tags })

def readItem (mem : Memory) (item : Item) (items : List (Item × List UInt8)) :
    Option (List (Item × List UInt8)) := do
  let (bytes, _) ← item.buf.read mem (item.buf.stop - item.buf.current)
  return items ++ [(item, bytes)]

/-- The items of `GetByteTagIterator`, each with the bytes that its tag is deserialized from. -/
def byteTags (mem : Memory) (p : Packet) : Option (List (Item × List UInt8)) := do
  let it ← p.tags.beginAt mem 0 (int32 p.size)
  it.forEach (fun _ => mem) (readItem mem) it.fuel []

def edit (mem : Memory) (p : Packet) : Edit → Option (Memory × Packet)
  | .addHeader size => p.addHeader mem size
  | .removeHeader deserialized => some (mem, p.removeHeader deserialized)
  | .addTrailer size => p.addTrailer mem size
  | .removeTrailer deserialized => some (mem, p.removeTrailer deserialized)
  | .addPaddingAtEnd size => p.addPaddingAtEnd mem size
  | .removeAtStart size => some (mem, p.removeAtStart size)
  | .removeAtEnd size => some (mem, p.removeAtEnd size)
  | .addByteTag tag => p.addByteTag mem tag
  | .addByteTagTo tag start stop => p.addByteTagTo mem tag start stop
  | .removeAllByteTags => some (p.removeAllByteTags mem)

end Packet

inductive Operation
  | create (size : ℕ)
  | copy (source : ℕ)
  | assign (target source : ℕ)
  | destroy (target : ℕ)
  | createFragment (source start length : ℕ)
  | addAtEnd (target other : ℕ)
  | edit (target : ℕ) (edit : Edit)
  deriving DecidableEq, Repr

structure Family where
  memory : Memory
  packets : List Packet

namespace Family

def put (family : Family) (target : ℕ) (result : Memory × Packet) : Family where
  memory := result.1
  packets := family.packets.set target result.2

def push (family : Family) (result : Memory × Packet) : Family where
  memory := result.1
  packets := family.packets ++ [result.2]

def step (family : Family) : Operation → Option Family
  | .create size => some (family.push (family.memory, Packet.create size))
  | .copy source => do
      let o ← family.packets[source]?
      return family.push (o.copy family.memory)
  | .assign target source => do
      let p ← family.packets[target]?
      let o ← family.packets[source]?
      if target = source then return family
      else return family.put target (p.assign family.memory o)
  | .destroy target => do
      let p ← family.packets[target]?
      return { memory := p.destroy family.memory, packets := family.packets.eraseIdx target }
  | .createFragment source start length => do
      let o ← family.packets[source]?
      return family.push (← o.createFragment family.memory start length)
  -- Packets are not appended to themselves.
  | .addAtEnd target other => do
      guard (target ≠ other)
      let p ← family.packets[target]?
      let o ← family.packets[other]?
      return family.put target (← p.addAtEnd family.memory o)
  | .edit target edit => do
      let p ← family.packets[target]?
      return family.put target (← p.edit family.memory edit)

end Family

/-- Bytes by the tags that each of them carries.  `travel` is how far the bytes of the packet have
been moved in all, `held` how many bytes its tags have taken. -/
structure TaggedBytes where
  bytes : List (List Tag)
  travel : ℕ
  held : ℕ
  deriving DecidableEq, Repr

namespace TaggedBytes

def untagged (count : ℕ) : List (List Tag) := List.replicate count []

def tagged (tag : Tag) (start stop : ℕ) (bytes : List (List Tag)) : List (List Tag) :=
  bytes.mapIdx fun index tags => if start ≤ index ∧ index < stop then tags ++ [tag] else tags

def edit (p : TaggedBytes) : Edit → Option TaggedBytes
  | .addHeader size => some { p with
      bytes := untagged size ++ p.bytes, travel := p.travel + size }
  | .removeHeader size | .removeAtStart size => some { p with
      bytes := p.bytes.drop size, travel := p.travel + size }
  | .addTrailer size | .addPaddingAtEnd size => some { p with
      bytes := p.bytes ++ untagged size, travel := p.travel + size }
  | .removeTrailer size | .removeAtEnd size => some { p with
      bytes := p.bytes.take (p.bytes.length - size) }
  | .addByteTag tag => some { p with
      bytes := tagged tag 0 p.bytes.length p.bytes, held := p.held + 16 + tag.payload.length }
  | .addByteTagTo tag start stop => do
      guard (start ≤ stop)
      return {
        bytes := tagged tag start stop p.bytes
        travel := p.travel + stop
        held := p.held + 16 + tag.payload.length }
  | .removeAllByteTags => some { p with bytes := untagged p.bytes.length }

def step (packets : List TaggedBytes) : Operation → Option (List TaggedBytes)
  | .create size => some (packets ++ [⟨untagged size, size, 0⟩])
  | .copy source => do
      let o ← packets[source]?
      return packets ++ [o]
  | .assign target source => do
      let _ ← packets[target]?
      let o ← packets[source]?
      return packets.set target o
  | .destroy target => do
      let _ ← packets[target]?
      return packets.eraseIdx target
  | .createFragment source start length => do
      let o ← packets[source]?
      guard (start + length ≤ o.bytes.length)
      return packets ++ [{ o with
        bytes := (o.bytes.drop start).take length, travel := o.travel + start }]
  | .addAtEnd target other => do
      guard (target ≠ other)
      let p ← packets[target]?
      let o ← packets[other]?
      return packets.set target {
        bytes := p.bytes ++ o.bytes, travel := p.travel + o.travel, held := p.held + o.held }
  | .edit target edit => do
      let p ← packets[target]?
      return packets.set target (← p.edit edit)

/-- Offsets that fit into half of an `int32_t`, and tags that a block can hold. -/
def Small (p : TaggedBytes) : Prop := p.travel < 2 ^ 30 ∧ p.held < 2 ^ 32

instance : DecidablePred Small := fun _ => instDecidableAnd

def Fits (packets : List TaggedBytes) (operation : Operation) : Prop :=
  ∀ next ∈ step packets operation, ∀ p ∈ next, p.Small

instance (packets : List TaggedBytes) : DecidablePred (Fits packets) := fun _ => by
  delta Fits
  infer_instance

end TaggedBytes

end FISim.ByteTags
