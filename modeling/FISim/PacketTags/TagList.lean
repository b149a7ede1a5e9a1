import FISim.Lib.Links
import FISim.Lib.Transition

/-!
`PacketTagList`: lists of serialized tags that share their nodes.  A list is the
root that holds its `m_next`, a `TagData` is a cell, and `malloc` never returns an
address that it has returned before.
-/

namespace FISim

open Links

/-- The classes that derive from `Tag`.  `serialize` gives the bytes that `Serialize` writes, as
many as `GetSerializedSize` says; `deserialize` fills an object of the class. -/
class TagClass (Tag : Type) (TypeId : outParam Type) where
  getInstanceTypeId : Tag → TypeId
  serialize : Tag → List UInt8
  deserialize : List UInt8 → Tag → Option Tag

/-- What a tag's reader owes to its writer: a serialized tag, with anything behind it, is read
back, up to what is not serialized.  Sizes are what `CreateTagData` takes. -/
class LawfulTags (Tag : Type) {TypeId : Type} [TagClass Tag TypeId] : Prop where
  small (tag : Tag) : (TagClass.serialize tag).length < 2 ^ 32 - 1
  reads (tag object : Tag) (rest : List UInt8)
    (same : TagClass.getInstanceTypeId object = TagClass.getInstanceTypeId tag) :
    ∃ got, TagClass.deserialize (TagClass.serialize tag ++ rest) object = some got ∧
      TagClass.getInstanceTypeId got = TagClass.getInstanceTypeId tag ∧
      TagClass.serialize got = TagClass.serialize tag

structure TagItem (TypeId : Type) where
  tid : TypeId
  data : List UInt8
  deriving DecidableEq

namespace PacketTagList

variable {Tag TypeId : Type} [DecidableEq TypeId] [TagClass Tag TypeId]

abbrev TagMemory (TypeId : Type) := Memory (TagItem TypeId)

-- The number of cells bounds the length of every list.
def fuel (mem : TagMemory TypeId) : ℕ := mem.cells.length + 1

/-- The allocation and initialisation of a node, which `CreateTagData` asserts to be small. -/
def createTagData (mem : TagMemory TypeId) (next : Option ℕ) (item : TagItem TypeId) :
    Option (TagMemory TypeId) :=
  if item.data.length < 2 ^ 32 - 1 then some (mem.alloc { next, count := 1, item }) else none

-- `next->count++`, where `next` may be null.
def countNext (mem : TagMemory TypeId) : Option ℕ → Option (TagMemory TypeId)
  | none => some mem
  | some address => do
      let _ ← mem.cell address
      return mem.increment (some address)

def free (mem : TagMemory TypeId) (address : ℕ) : Option (TagMemory TypeId) := do
  let _ ← mem.cell address
  return mem.setCell address none

inductive Stop
  | ended
  | merge (prevNext : Slot) (cur : ℕ)
  | found (prevNext : Slot) (cur : ℕ)
  deriving DecidableEq

/-- The first loop of `COWTraverse`: on to the tag or to the first merge. -/
def search (mem : TagMemory TypeId) (tid : TypeId) : ℕ → Slot → Option ℕ → Option Stop
  | 0, _, _ => none
  | _ + 1, _, none => some .ended
  | turns + 1, prevNext, some cur => do
      let data ← mem.cell cur
      if data.count > 1 then return .merge prevNext cur
      else if data.item.tid = tid then return .found prevNext cur
      else search mem tid turns (.next cur) data.next

def find (mem : TagMemory TypeId) (tid : TypeId) :
    ℕ → Option ℕ → Option (Option (Cell (TagItem TypeId)))
  | 0, _ => none
  | _ + 1, none => some none
  | turns + 1, some cur => do
      let data ← mem.cell cur
      if data.item.tid = tid then return some data else find mem tid turns data.next

/-- The copying loop of `COWTraverse`. -/
def copyUntil (tid : TypeId) : ℕ → TagMemory TypeId → Slot → ℕ →
    Option (TagMemory TypeId × Slot × ℕ)
  | 0, _, _, _ => none
  | turns + 1, mem, prevNext, cur => do
      let data ← mem.cell cur
      if data.item.tid = tid then return (mem, prevNext, cur)
      else if data.count ≤ 1 then none
      else
        let copy := mem.cells.length
        let mem ← createTagData (mem.recount cur (· - 1)) data.next data.item
        let next ← data.next
        let mem ← countNext mem (some next)
        copyUntil tid turns (mem.store prevNext (some copy)) (.next copy) next

/-- A `COWWriter`, with `preMerge`, `cur` and `prevNext`, which leaves its tag as it then is. -/
abbrev Writer (Tag TypeId : Type) :=
  TagMemory TypeId → Bool → ℕ → Slot → Option (TagMemory TypeId × Tag)

def removeWriter (tag : Tag) : Writer Tag TypeId := fun mem preMerge cur prevNext => do
  let data ← mem.cell cur
  let got ← TagClass.deserialize data.item.data tag
  let mem := mem.store prevNext data.next
  if preMerge then
    let mem ← free mem cur
    return (mem, got)
  else
    let mem ← countNext (mem.recount cur (· - 1)) data.next
    return (mem, got)

-- `TagBuffer` asserts that it is not written past its end.
def writeOver (old new : List UInt8) : Option (List UInt8) :=
  if new.length ≤ old.length then some (new ++ old.drop new.length) else none

def replaceWriter (tag : Tag) : Writer Tag TypeId := fun mem preMerge cur prevNext => do
  let data ← mem.cell cur
  if preMerge then
    let written ← writeOver data.item.data (TagClass.serialize tag)
    return (mem.setCell cur (some { data with item := { data.item with data := written } }), tag)
  else
    let copy := mem.cells.length
    let item := { tid := TagClass.getInstanceTypeId tag, data := TagClass.serialize tag }
    let mem ← createTagData (mem.recount cur (· - 1)) data.next item
    let mem ← countNext mem data.next
    return (mem.store prevNext (some copy), tag)

def cowTraverse (mem : TagMemory TypeId) (list : ℕ) (tid : TypeId) (writer : Writer Tag TypeId) :
    Option (TagMemory TypeId × Option Tag) := do
  match ← mem.root list with
  | none => return (mem, none)
  | some first =>
      match ← search mem tid (fuel mem) (.root list) (some first) with
      | .ended => return (mem, none)
      | .found prevNext cur =>
          let (mem, tag) ← writer mem true cur prevNext
          return (mem, some tag)
      | .merge prevNext cur =>
          match ← find mem tid (fuel mem) (some cur) with
          | none => return (mem, none)
          | some _ =>
              let (mem, prevNext, cur) ← copyUntil tid (fuel mem) mem prevNext cur
              let data ← mem.cell cur
              if data.count ≤ 1 then none
              else
                let (mem, tag) ← writer mem false cur prevNext
                return (mem, some tag)

def remove (mem : TagMemory TypeId) (list : ℕ) (tag : Tag) :
    Option (TagMemory TypeId × Option Tag) :=
  cowTraverse mem list (TagClass.getInstanceTypeId tag) (removeWriter tag)

def add (mem : TagMemory TypeId) (list : ℕ) (tag : Tag) : Option (TagMemory TypeId) := do
  let tid := TagClass.getInstanceTypeId tag
  let m_next ← mem.root list
  match ← find mem tid (fuel mem) m_next with
  | some _ => none
  | none =>
      let head := mem.cells.length
      let mem ← createTagData mem m_next { tid, data := TagClass.serialize tag }
      return mem.store (.root list) (some head)

def replace (mem : TagMemory TypeId) (list : ℕ) (tag : Tag) :
    Option (TagMemory TypeId × Bool) := do
  let (mem, found) ← cowTraverse mem list (TagClass.getInstanceTypeId tag) (replaceWriter tag)
  match found with
  | some _ => return (mem, true)
  | none =>
      let mem ← add mem list tag
      return (mem, false)

def peek (mem : TagMemory TypeId) (list : ℕ) (tag : Tag) : Option (Option Tag) := do
  let m_next ← mem.root list
  match ← find mem (TagClass.getInstanceTypeId tag) (fuel mem) m_next with
  | none => return none
  | some data =>
      let got ← TagClass.deserialize data.item.data tag
      return some got

def freePrev (mem : TagMemory TypeId) : Option ℕ → Option (TagMemory TypeId)
  | none => some mem
  | some prev => free mem prev

def removeAllLoop : ℕ → TagMemory TypeId → Option ℕ → Option ℕ → Option (TagMemory TypeId)
  | 0, _, _, _ => none
  | _ + 1, mem, prev, none => freePrev mem prev
  | turns + 1, mem, prev, some cur => do
      let data ← mem.cell cur
      let mem := mem.recount cur (· - 1)
      if data.count - 1 > 0 then freePrev mem prev
      else
        let mem ← freePrev mem prev
        removeAllLoop turns mem (some cur) data.next

def removeAll (mem : TagMemory TypeId) (list : ℕ) : Option (TagMemory TypeId) := do
  let m_next ← mem.root list
  let mem ← removeAllLoop (fuel mem) mem none m_next
  return mem.store (.root list) none

def copy (mem : TagMemory TypeId) (o : ℕ) : Option (TagMemory TypeId) := do
  let m_next ← mem.root o
  countNext (mem.newRoot m_next) m_next

def assign (mem : TagMemory TypeId) (list o : ℕ) : Option (TagMemory TypeId) := do
  let m_next ← mem.root list
  let other ← mem.root o
  if m_next = other then return mem
  else
    let mem ← removeAll mem list
    let other ← mem.root o
    countNext (mem.store (.root list) other) other

def destroy (mem : TagMemory TypeId) (list : ℕ) : Option (TagMemory TypeId) := do
  let mem ← removeAll mem list
  return mem.setRoot list none

end PacketTagList

end FISim
