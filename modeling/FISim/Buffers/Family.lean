import FISim.Buffers.Commands

/-!
A family of buffers that share their blocks, and the same operations on a family
of byte strings.
-/

namespace FISim.Buffers

open Cells Transition

inductive Operation
  | create (zeroSize : UInt32)
  | copy (source : ℕ)
  | assign (target source : ℕ)
  | destroy (target : ℕ)
  | addAtStart (target : ℕ) (start : UInt32) (commands : List Command)
  | addAtEnd (target : ℕ) (count : UInt32) (commands : List Command)
  | addBufferAtEnd (target other : ℕ)
  | removeAtStart (target : ℕ) (start : UInt32)
  | removeAtEnd (target : ℕ) (count : UInt32)
  | createFragment (source : ℕ) (start length : UInt32)
  | createFullCopy (source : ℕ)
  deriving DecidableEq, Repr

structure Family where
  memory : Memory
  buffers : List Buffer

namespace Family

def push (family : Family) (memory : Memory) (b : Buffer) : Family where
  memory
  buffers := family.buffers ++ [b]

def put (family : Family) (target : ℕ) (memory : Memory) (b : Buffer) : Family where
  memory
  buffers := family.buffers.set target b

def write (family : Family) (it : Iterator) (commands : List Command) : Option Family := do
  let (memory, _) ← run (Command.step family.buffers) (family.memory, it) commands
  return { family with memory }

def step (family : Family) : Operation → Option Family
  | .create zeroSize => do
      let (memory, b) ← Buffer.initializeData family.memory zeroSize
      return family.push memory b
  | .copy source => do
      let o ← family.buffers[source]?
      let (memory, b) := o.copy family.memory
      return family.push memory b
  | .assign target source => do
      let b ← family.buffers[target]?
      let o ← family.buffers[source]?
      let (memory, b) := b.assign family.memory o
      return family.put target memory b
  | .destroy target => do
      let b ← family.buffers[target]?
      return { memory := b.destroy family.memory, buffers := family.buffers.eraseIdx target }
  | .addAtStart target start commands => do
      let b ← family.buffers[target]?
      let (memory, b) ← b.addAtStart family.memory start
      (family.put target memory b).write b.atBegin commands
  | .addAtEnd target count commands => do
      let b ← family.buffers[target]?
      let (memory, b) ← b.addAtEnd family.memory count
      (family.put target memory b).write b.atEnd commands
  | .addBufferAtEnd target other => do
      let b ← family.buffers[target]?
      let o ← family.buffers[other]?
      let (memory, b) ← b.addBufferAtEnd family.memory o
      return family.put target memory b
  | .removeAtStart target start => do
      let b ← family.buffers[target]?
      return family.put target family.memory (b.removeAtStart start)
  | .removeAtEnd target count => do
      let b ← family.buffers[target]?
      return family.put target family.memory (b.removeAtEnd count)
  | .createFragment source start length => do
      let o ← family.buffers[source]?
      let (memory, b) := o.createFragment family.memory start length
      return family.push memory b
  | .createFullCopy source => do
      let o ← family.buffers[source]?
      let (memory, b) ← o.createFullCopy family.memory
      return family.push memory b

/-- Offsets and sizes that do not wrap around, ranges from another block and to a place that no
zero area comes before, and nothing but zeros behind a zero area that is lengthened. -/
def Fits (family : Family) : Operation → Prop
  | .create zeroSize => family.memory.newStart.toNat + zeroSize.toNat < 2 ^ 32
  | .addAtStart target start commands => ∀ b ∈ family.buffers[target]?,
      b.FitsAtStart family.memory start ∧ ∀ command ∈ commands,
        command.Fits family.buffers b (b.roomAtStart family.memory start) false
  | .addAtEnd target count commands => ∀ b ∈ family.buffers[target]?,
      b.FitsAtEnd family.memory count ∧ ∀ command ∈ commands,
        command.Fits family.buffers b (b.roomAtEnd family.memory count) true
  | .addBufferAtEnd target other => ∀ b ∈ family.buffers[target]?, ∀ o ∈ family.buffers[other]?,
      b.FitsBufferAtEnd family.memory o
  | .removeAtStart target start => ∀ b ∈ family.buffers[target]?,
      b.start.toNat + start.toNat < 2 ^ 32
  | .createFullCopy source => ∀ o ∈ family.buffers[source]?, o.FitsFullCopy family.memory
  | _ => True

instance (family : Family) : DecidablePred family.Fits := fun operation => by
  delta Fits
  cases operation <;> infer_instance

end Family

namespace ByteString

def unwritten (count : ℕ) : ByteString := List.replicate count none

/-- The operations on plain byte strings. -/
def step (strings : List ByteString) : Operation → Option (List ByteString)
  | .create zeroSize => some (strings ++ [List.replicate zeroSize.toNat (some 0)])
  | .copy source => do
      let string ← strings[source]?
      return strings ++ [string]
  | .assign target source => do
      let _ ← strings[target]?
      let string ← strings[source]?
      return strings.set target string
  | .destroy target => do
      let _ ← strings[target]?
      return strings.eraseIdx target
  | .addAtStart target start commands => do
      let string ← strings[target]?
      let (string, _) ← run (Command.plain strings target 0 start.toNat)
        (unwritten start.toNat ++ string, 0) commands
      return strings.set target string
  | .addAtEnd target count commands => do
      let string ← strings[target]?
      let (string, _) ← run
        (Command.plain strings target string.length (string.length + count.toNat))
        (string ++ unwritten count.toNat, string.length + count.toNat) commands
      return strings.set target string
  | .addBufferAtEnd target other => do
      guard (other ≠ target)
      let string ← strings[target]?
      let suffix ← strings[other]?
      return strings.set target (string ++ suffix)
  | .removeAtStart target start => do
      let string ← strings[target]?
      return strings.set target (string.drop start.toNat)
  | .removeAtEnd target count => do
      let string ← strings[target]?
      return strings.set target (string.take (string.length - count.toNat))
  | .createFragment source start length => do
      let string ← strings[source]?
      guard (start.toNat + length.toNat ≤ string.length)
      return strings ++ [(string.drop start.toNat).take length.toNat]
  | .createFullCopy source => do
      let string ← strings[source]?
      return strings ++ [string]

end ByteString

end FISim.Buffers
