import FISim.AddressResolution.ArpCache

/-!
`ArpL3Protocol` and the side of `Ipv4Interface` that calls it: how a packet gets the
hardware address that it is sent to.
-/

namespace FISim.Arp

structure Ipv4InterfaceAddress where
  getLocal : Ipv4Address
  getMask : UInt32
  isSecondary : Bool := false

/-- A device and the addresses of the interface on it. -/
structure Station where
  getAddress : Address
  getBroadcast : Address
  getMulticast : Ipv4Address → Address
  needsArp : Bool := true
  ifaddrs : List Ipv4InterfaceAddress
  attributes : Attributes := {}
  -- what is found among the other interfaces of the node
  otherSource : Ipv4Address := 0

def isBroadcast (address : Ipv4Address) : Bool := address = 0xffffffff

def isMulticast (address : Ipv4Address) : Bool := 0xe0000000 ≤ address && address ≤ 0xefffffff

def isSubnetDirectedBroadcast (address mask : UInt32) : Bool :=
  if mask = 0xffffffff then false else (address ||| ~~~mask) = address

def combineMask (address mask : UInt32) : Ipv4Address := address &&& mask

namespace Station

variable (station : Station)

def isLocal (dest : Ipv4Address) : Bool := station.ifaddrs.any fun address => dest = address.getLocal

/-- The hardware address of a destination that is not looked up. -/
def hardwareDestination (dest : Ipv4Address) : Option Address :=
  if station.needsArp then
    if isBroadcast dest then some station.getBroadcast
    else if isMulticast dest then some (station.getMulticast dest)
    else if station.ifaddrs.any fun address => isSubnetDirectedBroadcast dest address.getMask then
      some station.getBroadcast
    else none
  else some station.getBroadcast

/-- No scope is beyond `GLOBAL`, which is what the caller asks for. -/
def selectSourceAddress (dst : Ipv4Address) : Ipv4Address :=
  let primary := station.ifaddrs.filter fun address => !address.isSecondary
  match primary.find? fun address =>
      combineMask dst address.getMask = combineMask address.getLocal address.getMask with
  | some address => address.getLocal
  | none => (primary.head?.map Ipv4InterfaceAddress.getLocal).getD station.otherSource

def sendArpRequest (destination : Ipv4Address) : ArpHeader :=
  .setRequest station.getAddress (station.selectSourceAddress destination) station.getBroadcast
    destination

def sendArpReply (myIp toIp : Ipv4Address) (toMac : Address) : ArpHeader :=
  .setReply station.getAddress myIp toMac toIp

end Station

structure Ipv4Interface (Pair : Type) where
  ifup : Bool := true
  cache : ArpCache Pair := {}
  -- the calls of `SendArpRequest` that are scheduled
  scheduled : List Ipv4Address := []
  -- history: what was to be sent, and what became of it
  handed : List (Ipv4Address × Pair) := []
  sent : List (Ipv4Address × Pair × Address) := []
  received : List (Ipv4Address × Pair) := []
  dropped : List (Ipv4Address × Pair) := []
  lost : List (Ipv4Address × Pair) := []

namespace Ipv4Interface

variable {Pair : Type} (station : Station) (now : ℕ) (interface : Ipv4Interface Pair)

def hand (pair : Pair) (dest : Ipv4Address) : Ipv4Interface Pair :=
  { interface with handed := interface.handed ++ [(dest, pair)] }

def startWaiting (pair : Pair) (destination : Ipv4Address) (entry : Entry Pair) :
    Option (Ipv4Interface Pair) := do
  let entry ← entry.markWaitReply now pair
  return { interface with
    cache := (interface.cache.put destination entry).startWaitReplyTimer station.attributes now
    scheduled := interface.scheduled ++ [destination] }

def lookup (pair : Pair) (destination : Ipv4Address) :
    Option (Ipv4Interface Pair × Option Address) :=
  match interface.cache.lookup destination with
  | some entry =>
      if entry.isExpired station.attributes now then
        if entry.isDead then
          (interface.startWaiting station now pair destination entry).map (·, none)
        else if entry.isAlive then
          (interface.startWaiting station now pair destination entry).map (·, none)
        -- "Test for possibly unreachable code"
        else none
      else if entry.isDead then
        some ({ interface with dropped := interface.dropped ++ [(destination, pair)] }, none)
      else if entry.isAlive then some (interface, some entry.macAddress)
      else if entry.isWaitReply then do
        let (entry, room) ← entry.updateWaitReply station.attributes pair
        if room then return ({ interface with cache := interface.cache.put destination entry }, none)
        else return ({ interface with dropped := interface.dropped ++ [(destination, pair)] }, none)
      else some (interface, some entry.macAddress)
  | none => (interface.startWaiting station now pair destination {}).map (·, none)

def send (pair : Pair) (dest : Ipv4Address) : Option (Ipv4Interface Pair) :=
  if !interface.ifup then some { interface with lost := interface.lost ++ [(dest, pair)] }
  else if station.isLocal dest then
    some { interface with received := interface.received ++ [(dest, pair)] }
  else do
    let (interface, found) ←
      match station.hardwareDestination dest with
      | some address => some (interface, some address)
      | none => interface.lookup station now pair dest
    match found with
    | some address => return { interface with sent := interface.sent ++ [(dest, pair, address)] }
    | none => return interface

/-- `while (pending.first)`. -/
def sendPending (source : Ipv4Address) : ℕ → Ipv4Interface Pair → Option (Ipv4Interface Pair)
  | 0, _ => none
  | fuel + 1, interface => do
      let entry ← interface.cache.lookup source
      match entry.dequeuePending with
      | none => return interface
      | some (pair, entry) =>
          let interface ← send station now
            { interface with cache := interface.cache.put source entry } pair source
          sendPending source fuel interface

/-- The interface, and the replies that are sent. -/
def receive (arp : ArpHeader) : Option (Ipv4Interface Pair × List ArpHeader) :=
  if station.ifaddrs.any fun address => arp.isRequest && arp.ipv4Dest = address.getLocal then
    some (interface, [station.sendArpReply arp.ipv4Dest arp.ipv4Source arp.macSource])
  else if station.ifaddrs.any fun address =>
      arp.isReply && arp.ipv4Dest = address.getLocal && arp.macDest = station.getAddress then
    match interface.cache.lookup arp.ipv4Source with
    | some entry =>
        if entry.isWaitReply then do
          let entry ← entry.markAlive now arp.macSource
          let interface ← sendPending station now arp.ipv4Source (entry.pending.length + 1)
            { interface with cache := interface.cache.put arp.ipv4Source entry }
          return (interface, [])
        else some (interface, [])
    | none => some (interface, [])
  else some (interface, [])

/-- The interface, and the requests that are sent. -/
def handleWaitReplyTimeout : Ipv4Interface Pair × List ArpHeader :=
  let (cache, requested, dropped) := interface.cache.handleWaitReplyTimeout station.attributes now
  ({ interface with cache, dropped := interface.dropped ++ dropped },
    requested.map station.sendArpRequest)

/-- What `Ipv4L3Protocol::Receive` does to the cache. -/
def packetReceived (source : Ipv4Address) (sender : Address) : Ipv4Interface Pair :=
  match interface.cache.lookup source with
  | some entry =>
      if entry.isAlive then
        { interface with cache := interface.cache.put source (entry.updateSeen now) }
      else interface
  | none =>
      { interface with
        cache := { interface.cache with
          arpCache := interface.cache.arpCache.map fun _ entry =>
            if entry.macAddress = sender && entry.isAlive then entry.updateSeen now else entry } }

/-- `NeighborCacheHelper::AddEntry`. -/
def addEntry (ipv4Address : Ipv4Address) (macAddress : Address) : Option (Ipv4Interface Pair) := do
  let entry := (interface.cache.lookup ipv4Address).getD {}
  let entry ← (entry.setMacAddress macAddress).markAutoGenerated now
  return { interface with cache := interface.cache.put ipv4Address entry }

def removeAutoGeneratedEntries : Ipv4Interface Pair :=
  { interface with cache := interface.cache.removeAutoGeneratedEntries }

/-- What waits is deleted with its entry and not traced. -/
def flush : Ipv4Interface Pair :=
  { interface with cache := ArpCache.flush, lost := interface.lost ++ interface.cache.pairs }

def remove (ipv4Address : Ipv4Address) : Ipv4Interface Pair :=
  { interface with
    cache := interface.cache.remove ipv4Address
    lost := interface.lost ++
      ((interface.cache.lookup ipv4Address).elim [] Entry.pending).map (Prod.mk ipv4Address) }

end Ipv4Interface

end FISim.Arp
