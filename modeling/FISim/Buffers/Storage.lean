import FISim.Common
import FISim.Lib.Cells
import Mathlib.Logic.Function.Basic

/-!
`Buffer::Data`: the blocks of bytes that buffers share, and the list of free
blocks that they are taken from.  The bytes past the end of a block are out of
bounds, and a new block holds whatever the memory held there.
-/

namespace FISim.Buffers

open Cells

structure Data where
  count : ℕ := 0
  size : UInt32 := 0
  dirtyStart : UInt32 := 0
  dirtyEnd : UInt32 := 0
  data : ℕ → UInt8 := fun _ => 0

-- The last block of the free list comes first.
structure Memory where
  data : ℕ → Data := fun _ => {}
  next : ℕ := 0
  freeList : List ℕ := []
  maxSize : UInt32 := 0
  recommendedStart : UInt32 := 0

namespace Memory

def modify (mem : Memory) (address : ℕ) (change : Data → Data) : Memory :=
  { mem with data := Function.update mem.data address (change (mem.data address)) }

def sizeofData : ℕ := 20

-- The size of the block with its header is a `uint32_t`: one that wraps around has no block.
def allocate (mem : Memory) (reqSize : UInt32) : Option (Memory × ℕ) :=
  let reqSize := if reqSize = 0 then 1 else reqSize
  if reqSize.toNat - 1 + sizeofData < 2 ^ 32 then
    some ({ mem.modify mem.next fun data => { data with size := reqSize, count := 1 } with
      next := mem.next + 1 }, mem.next)
  else none

def create (mem : Memory) (dataSize : UInt32) : Option (Memory × ℕ) :=
  match mem.freeList.dropWhile fun address => (mem.data address).size < dataSize with
  | [] => { mem with freeList := [] }.allocate dataSize
  | address :: rest =>
      some ({ mem with freeList := rest }.modify address fun data => { data with count := 1 },
        address)

def recycle (mem : Memory) (address : ℕ) : Memory :=
  let maxSize := max mem.maxSize (mem.data address).size
  if (mem.data address).size < maxSize ∨ 1000 < mem.freeList.length then { mem with maxSize }
  else { mem with maxSize, freeList := address :: mem.freeList }

def share (mem : Memory) (address : ℕ) : Memory :=
  mem.modify address fun data => { data with count := data.count + 1 }

def release (mem : Memory) (address : ℕ) : Memory :=
  let mem := mem.modify address fun data => { data with count := data.count - 1 }
  if (mem.data address).count = 0 then mem.recycle address else mem

def recommend (mem : Memory) (start : UInt32) : Memory :=
  { mem with recommendedStart := max mem.recommendedStart start }

def setDirtyStart (mem : Memory) (address : ℕ) (dirtyStart : UInt32) : Memory :=
  mem.modify address fun data => { data with dirtyStart }

def setDirtyEnd (mem : Memory) (address : ℕ) (dirtyEnd : UInt32) : Memory :=
  mem.modify address fun data => { data with dirtyEnd }

def read (mem : Memory) (address index count : ℕ) : Option (List UInt8) :=
  if count = 0 ∨ index + count ≤ (mem.data address).size.toNat then
    some (slice (mem.data address).data index count)
  else none

def write (mem : Memory) (address index : ℕ) (bytes : List UInt8) : Option Memory :=
  if bytes = [] ∨ index + bytes.length ≤ (mem.data address).size.toNat then
    some (mem.modify address fun data => { data with data := patch data.data index bytes })
  else none

end Memory

end FISim.Buffers
