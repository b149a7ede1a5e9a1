import FISim.Lib.SharedRoots
import FISim.PacketTags.TagList
import Mathlib.Logic.Function.Basic

/-!
A family of packet tag lists, and what it stands for: a family of finite maps from
tag types to tags, none of which knows of another.
-/

namespace FISim.PacketTags

open Links PacketTagList

inductive Action (Tag : Type)
  | create
  | copy (o : ℕ)
  | assign (list o : ℕ)
  | destroy (list : ℕ)
  | removeAll (list : ℕ)
  | add (list : ℕ) (tag : Tag)
  | remove (list : ℕ) (tag : Tag)
  | replace (list : ℕ) (tag : Tag)
  | peek (list : ℕ) (tag : Tag)
  deriving DecidableEq

/-- What a caller learns: the tag that `Remove` or `Peek` has found, or whether `Replace` has
found one. -/
inductive Answer (Tag : Type)
  | removed (found : Option Tag)
  | replaced (found : Bool)
  | peeked (found : Option Tag)
  deriving DecidableEq

structure Family (Tag TypeId : Type) where
  memory : TagMemory TypeId := {}
  -- history
  answers : List (Answer Tag) := []

structure Maps (Tag TypeId : Type) where
  maps : List (Option (TypeId → Option Tag)) := []
  answers : List (Answer Tag) := []

variable {Tag TypeId : Type} [DecidableEq TypeId] [TagClass Tag TypeId]

namespace Family

def step (family : Family Tag TypeId) : Action Tag → Option (Family Tag TypeId)
  | .create => some { family with memory := family.memory.newRoot none }
  | .copy o => do
      let memory ← PacketTagList.copy family.memory o
      return { family with memory }
  | .assign list o => do
      let memory ← PacketTagList.assign family.memory list o
      return { family with memory }
  | .destroy list => do
      let memory ← PacketTagList.destroy family.memory list
      return { family with memory }
  | .removeAll list => do
      let memory ← PacketTagList.removeAll family.memory list
      return { family with memory }
  | .add list tag => do
      let memory ← PacketTagList.add family.memory list tag
      return { family with memory }
  | .remove list tag => do
      let (memory, found) ← PacketTagList.remove family.memory list tag
      return { memory, answers := family.answers ++ [.removed found] }
  | .replace list tag => do
      let (memory, found) ← PacketTagList.replace family.memory list tag
      return { memory, answers := family.answers ++ [.replaced found] }
  | .peek list tag => do
      let found ← PacketTagList.peek family.memory list tag
      return { family with answers := family.answers ++ [.peeked found] }

/-- A tag that `Replace` finds before the first merge is rewritten in place: the new one is no
longer than its buffer. -/
def Fits (family : Family Tag TypeId) : Action Tag → Prop
  | .replace list tag =>
      ∀ m_next ∈ family.memory.root list, ∀ stop ∈ search family.memory
        (TagClass.getInstanceTypeId tag) (fuel family.memory) (.root list) m_next,
        match stop with
        | .found _ cur => ∀ data ∈ family.memory.cell cur,
            (TagClass.serialize tag).length ≤ data.item.data.length
        | _ => True
  | _ => True

instance (family : Family Tag TypeId) (action : Action Tag) : Decidable (family.Fits action) := by
  cases action with
  | replace list tag =>
      have decidable : ∀ stop : Stop, Decidable (match stop with
          | .found _ cur => ∀ data ∈ family.memory.cell cur,
              (TagClass.serialize tag).length ≤ data.item.data.length
          | _ => True) := by
        intro stop
        cases stop <;> infer_instance
      unfold Fits
      infer_instance
  | _ => exact isTrue trivial

end Family

namespace Maps

def map (family : Maps Tag TypeId) (list : ℕ) : Option (TypeId → Option Tag) :=
  family.maps[list]?.join

def setMap (family : Maps Tag TypeId) (list : ℕ) (map : Option (TypeId → Option Tag)) :
    Maps Tag TypeId :=
  { family with maps := family.maps.set list map }

def step (family : Maps Tag TypeId) : Action Tag → Option (Maps Tag TypeId)
  | .create => some { family with maps := family.maps ++ [some fun _ => none] }
  | .copy o => do
      let other ← family.map o
      return { family with maps := family.maps ++ [some other] }
  | .assign list o => do
      let _ ← family.map list
      let other ← family.map o
      return family.setMap list (some other)
  | .destroy list => do
      let _ ← family.map list
      return family.setMap list none
  | .removeAll list => do
      let _ ← family.map list
      return family.setMap list (some fun _ => none)
  | .add list tag => do
      let tags ← family.map list
      let tid := TagClass.getInstanceTypeId tag
      if (tags tid).isSome then none
      else return family.setMap list (some (Function.update tags tid (some tag)))
  | .remove list tag => do
      let tags ← family.map list
      let tid := TagClass.getInstanceTypeId tag
      return { family.setMap list (some (Function.update tags tid none)) with
        answers := family.answers ++ [.removed (tags tid)] }
  | .replace list tag => do
      let tags ← family.map list
      let tid := TagClass.getInstanceTypeId tag
      return { family.setMap list (some (Function.update tags tid (some tag))) with
        answers := family.answers ++ [.replaced (tags tid).isSome] }
  | .peek list tag => do
      let tags ← family.map list
      return { family with
        answers := family.answers ++ [.peeked (tags (TagClass.getInstanceTypeId tag))] }

end Maps

def SameTag (got tag : Tag) : Prop :=
  TagClass.getInstanceTypeId got = TagClass.getInstanceTypeId tag ∧
    TagClass.serialize got = TagClass.serialize tag

inductive SameAnswer : Answer Tag → Answer Tag → Prop
  | removed {found : Option Tag} {expected : Option Tag} : Option.Rel SameTag found expected →
      SameAnswer (.removed found) (.removed expected)
  | replaced (found : Bool) : SameAnswer (.replaced found) (.replaced found)
  | peeked {found : Option Tag} {expected : Option Tag} : Option.Rel SameTag found expected →
      SameAnswer (.peeked found) (.peeked expected)

/-- A node holds a tag when its buffer starts with the serialized tag. -/
structure Encodes (item : TagItem TypeId) (tag : Tag) : Prop where
  tid : item.tid = TagClass.getInstanceTypeId tag
  data : TagClass.serialize tag <+: item.data
  small : item.data.length < 2 ^ 32 - 1

/-- A list of nodes is a map when it has one node for each of its tag types, and no other. -/
structure Represents (items : List (TagItem TypeId)) (tags : TypeId → Option Tag) : Prop where
  distinct : (items.map TagItem.tid).Nodup
  holds : ∀ item ∈ items, ∃ tag, tags item.tid = some tag ∧ Encodes item tag
  covers : ∀ tid, (tags tid).isSome → tid ∈ items.map TagItem.tid

def Lists (mem : TagMemory TypeId) (list : ℕ) (items : List (TagItem TypeId)) : Prop :=
  ∃ start passed, mem.root list = some start ∧ Run mem.body start passed none ∧
    passed.map Prod.snd = items

/-- Every list is its map, every caller has learnt what its map says, every node counts the
pointers to it, and the nodes that there are are those on the lists. -/
structure Agrees (family : Family Tag TypeId) (maps : Maps Tag TypeId) : Prop where
  answers : List.Forall₂ SameAnswer family.answers maps.answers
  length : family.memory.roots.length = maps.maps.length
  gone : ∀ list, maps.map list = none → family.memory.root list = none
  lists : ∀ list tags, maps.map list = some tags →
    ∃ items, Lists family.memory list items ∧ Represents items tags
  counted : ∀ address cell, family.memory.cell address = some cell →
    cell.count = family.memory.pointers address
  reached : ∀ address, (family.memory.cell address).isSome ↔
    ∃ list start passed, family.memory.root list = some start ∧
      Run family.memory.body start passed none ∧ address ∈ addresses passed

end FISim.PacketTags
