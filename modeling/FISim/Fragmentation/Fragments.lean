import FISim.Common

/-!
IPv4 fragmentation: how `Ipv4L3Protocol` cuts a packet that does not fit an
interface's MTU, and how it puts the fragments of a datagram together again.
-/

namespace FISim.Fragmentation

abbrev Ipv4Address := UInt32

structure Ipv4Header where
  source : Ipv4Address
  destination : Ipv4Address
  identification : UInt16
  protocol : UInt8
  payloadSize : UInt16
  flags : BitVec 3
  fragmentOffset : UInt16
  deriving DecidableEq

namespace Ipv4Header

def moreFragments : BitVec 3 := 1 <<< 1

def serializedSize : UInt32 := 5 * 4

def setMoreFragments (header : Ipv4Header) : Ipv4Header :=
  { header with flags := header.flags ||| moreFragments }

def setLastFragment (header : Ipv4Header) : Ipv4Header :=
  { header with flags := header.flags &&& ~~~moreFragments }

def isLastFragment (header : Ipv4Header) : Bool := header.flags &&& moreFragments = 0

def setFragmentOffset (header : Ipv4Header) (offsetBytes : UInt16) : Option Ipv4Header :=
  if offsetBytes &&& 7 ≠ 0 then none else some { header with fragmentOffset := offsetBytes }

def setPayloadSize (header : Ipv4Header) (size : UInt16) : Ipv4Header :=
  { header with payloadSize := size }

theorem isLastFragment_setMoreFragments (header : Ipv4Header) :
    header.setMoreFragments.isLastFragment = false := by
  have set : ∀ flags : BitVec 3, (flags ||| moreFragments) &&& moreFragments ≠ 0 := by decide
  exact decide_eq_false (set header.flags)

theorem isLastFragment_setLastFragment (header : Ipv4Header) :
    header.setLastFragment.isLastFragment = true := by
  have cleared : ∀ flags : BitVec 3, flags &&& ~~~moreFragments &&& moreFragments = 0 := by decide
  exact decide_eq_true (cleared header.flags)

end Ipv4Header

abbrev Fragment := Packet × Ipv4Header

def createFragment (packet : Packet) (start length : UInt32) : Packet :=
  (packet.drop start.toNat).take length.toNat

/-- The loop of `DoFragmentation` at an offset. -/
def fragmentLoop (p : Packet) (ipv4Header : Ipv4Header) (fragmentSize : UInt32) :
    ℕ → UInt16 → Option (List Fragment)
  | 0, _ => none
  | fuel + 1, offset => do
      let moreFragment := decide (offset.toUInt32 + fragmentSize < getSize p)
      let currentFragmentablePartSize :=
        if moreFragment then fragmentSize else getSize p - offset.toUInt32
      let flagged :=
        if moreFragment || !ipv4Header.isLastFragment then ipv4Header.setMoreFragments
        else ipv4Header.setLastFragment
      let placed ← flagged.setFragmentOffset (offset + ipv4Header.fragmentOffset)
      let fragment := (createFragment p offset.toUInt32 currentFragmentablePartSize,
        placed.setPayloadSize currentFragmentablePartSize.toUInt16)
      if moreFragment then
        let rest ← fragmentLoop p ipv4Header fragmentSize fuel
          (offset + currentFragmentablePartSize.toUInt16)
        return fragment :: rest
      else
        return [fragment]

def doFragmentation (packet : Packet) (ipv4Header : Ipv4Header) (outIfaceMtu : UInt32) :
    Option (List Fragment) :=
  fragmentLoop packet ipv4Header ((outIfaceMtu - Ipv4Header.serializedSize) &&& ~~~7)
    (packet.length + 1) 0

structure Fragments where
  moreFragment : Bool := false
  fragments : List (Packet × UInt16) := []
  deriving DecidableEq

namespace Fragments

def addFragment (entry : Fragments) (fragment : Packet) (fragmentOffset : UInt16)
    (moreFragment : Bool) : Fragments :=
  let before := entry.fragments.takeWhile fun held => !decide (held.2 > fragmentOffset)
  let after := entry.fragments.dropWhile fun held => !decide (held.2 > fragmentOffset)
  { moreFragment := if after = [] then moreFragment else entry.moreFragment
    fragments := before ++ (fragment, fragmentOffset) :: after }

/-- The loop of `IsEntire` over the list. -/
def noGap : UInt16 → List (Packet × UInt16) → Bool
  | _, [] => true
  | lastEndOffset, held :: rest =>
      if lastEndOffset < held.2 then false
      else
        let fragmentEnd := (getSize held.1 + held.2.toUInt32).toUInt16
        noGap (max lastEndOffset fragmentEnd) rest

def isEntire (entry : Fragments) : Bool :=
  !entry.moreFragment && !entry.fragments.isEmpty && noGap 0 entry.fragments

/-- The loop of `GetPacket` behind the first fragment. -/
def appendFragments : Packet → UInt16 → List (Packet × UInt16) → Packet
  | p, _, [] => p
  | p, lastEndOffset, held :: rest =>
      let longer :=
        if lastEndOffset > held.2 then
          let newStart := lastEndOffset.toUInt32 - held.2.toUInt32
          if getSize held.1 > newStart then
            p ++ createFragment held.1 newStart (getSize held.1 - newStart)
          else p
        else p ++ held.1
      appendFragments longer (getSize longer).toUInt16 rest

def getPacket (entry : Fragments) : Option Packet :=
  match entry.fragments with
  | [] => none
  | held :: rest => some (appendFragments held.1 (getSize held.1).toUInt16 rest)

end Fragments

abbrev FragmentKey := UInt64 × UInt32

def fragmentKey (ipHeader : Ipv4Header) : FragmentKey :=
  ((ipHeader.source.toUInt64 <<< 32) ||| ipHeader.destination.toUInt64,
    (ipHeader.identification.toUInt32 <<< 16) ||| ipHeader.protocol.toUInt32)

abbrev MapFragments := FragmentKey → Option Fragments

/-- The map afterwards, and the packet when it is complete. -/
def processFragment (mapFragments : MapFragments) (packet : Packet) (ipHeader : Ipv4Header) :
    Option (MapFragments × Option Packet) :=
  let key := fragmentKey ipHeader
  let fragments := ((mapFragments key).getD {}).addFragment packet ipHeader.fragmentOffset
    (!ipHeader.isLastFragment)
  if fragments.isEntire then do
    let whole ← fragments.getPacket
    return (Function.update mapFragments key none, some whole)
  else
    return (Function.update mapFragments key (some fragments), none)

end FISim.Fragmentation
