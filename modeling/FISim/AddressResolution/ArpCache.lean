import FISim.AddressResolution.ArpHeader
import FISim.Lib.OrderedMaps

/-!
`ArpCache`: for each address that was asked for, what is known of it and the packets
that wait for it.  A packet and its header are kept together as a pair, which nothing
here looks into.
-/

namespace FISim.Arp

inductive ArpCacheEntryState
  | alive
  | waitReply
  | dead
  | permanent
  | staticAutogenerated
  deriving DecidableEq

structure Attributes where
  aliveTimeout : ℕ := 120000000000
  deadTimeout : ℕ := 100000000000
  waitReplyTimeout : ℕ := 1000000000
  maxRetries : ℕ := 3
  pendingQueueSize : ℕ := 3

structure Entry (Pair : Type) where
  state : ArpCacheEntryState := .alive
  lastSeen : ℕ := 0
  macAddress : Address := []
  pending : List Pair := []
  retries : ℕ := 0
  -- history: when it began to wait
  asked : ℕ := 0
  deriving DecidableEq

namespace Entry

variable {Pair : Type} (entry : Entry Pair) (attributes : Attributes) (now : ℕ)

def isDead : Bool := entry.state = .dead
def isAlive : Bool := entry.state = .alive
def isWaitReply : Bool := entry.state = .waitReply
def isAutoGenerated : Bool := entry.state = .staticAutogenerated

def clearRetries : Entry Pair := { entry with retries := 0 }
def updateSeen : Entry Pair := { entry with lastSeen := now }
def clearPendingPacket : Entry Pair := { entry with pending := [] }
def setMacAddress (macAddress : Address) : Entry Pair := { entry with macAddress }

/-- It is asserted that the entry is not permanent.  The one that calls this has an entry that
waits. -/
def markDead : Entry Pair := (({ entry with state := .dead } : Entry Pair).clearRetries).updateSeen now

def markAlive (macAddress : Address) : Option (Entry Pair) :=
  if entry.isWaitReply then
    some ((({ entry with macAddress, state := .alive } : Entry Pair).clearRetries).updateSeen now)
  else none

def markAutoGenerated : Option (Entry Pair) :=
  if entry.macAddress = [] then none
  else some ((({ entry with state := .staticAutogenerated } : Entry Pair).clearRetries).updateSeen now)

/-- Whether there was room for the pair. -/
def updateWaitReply (waiting : Pair) : Option (Entry Pair × Bool) :=
  if entry.isWaitReply then
    if attributes.pendingQueueSize ≤ entry.pending.length then some (entry, false)
    else some ({ entry with pending := entry.pending ++ [waiting] }, true)
  else none

def markWaitReply (waiting : Pair) : Option (Entry Pair) :=
  if (entry.isAlive || entry.isDead) && entry.pending.isEmpty then
    some (({ entry with
      state := .waitReply, pending := entry.pending ++ [waiting], asked := now } :
        Entry Pair).updateSeen now)
  else none

/-- Nothing stands for `Time::Max`. -/
def getTimeout : Option ℕ :=
  match entry.state with
  | .waitReply => some attributes.waitReplyTimeout
  | .dead => some attributes.deadTimeout
  | .alive => some attributes.aliveTimeout
  | .permanent => none
  | .staticAutogenerated => none

def isExpired : Bool := (entry.getTimeout attributes).any fun timeout => timeout < now - entry.lastSeen

def dequeuePending : Option (Pair × Entry Pair) :=
  match entry.pending with
  | [] => none
  | pair :: pending => some (pair, { entry with pending })

def incrementRetries : Entry Pair :=
  ({ entry with retries := entry.retries + 1 } : Entry Pair).updateSeen now

/-- Whether the entry is asked for once more when the timer expires. -/
def isRetried : Bool := entry.isWaitReply && entry.retries < attributes.maxRetries

/-- Whether the entry is given up when the timer expires. -/
def isGivenUp : Bool := entry.isWaitReply && !(entry.retries < attributes.maxRetries)

/-- What a turn of the loop in `HandleWaitReplyTimeout` makes of an entry. -/
def afterTimeout : Entry Pair :=
  if entry.isRetried attributes then entry.incrementRetries now
  else if entry.isGivenUp attributes then (entry.markDead now).clearRetries.clearPendingPacket
  else entry

end Entry

/-- When the timer expires is known while it is running. -/
structure ArpCache (Pair : Type) where
  arpCache : OrderedMap UInt32.toNat (Entry Pair) := .empty
  waitReplyTimer : Option ℕ := none

namespace ArpCache

variable {Pair : Type} (cache : ArpCache Pair) (attributes : Attributes) (now : ℕ)

def lookup (address : Ipv4Address) : Option (Entry Pair) := cache.arpCache.find? address

/-- The entry of an address, as one of the functions of `Entry` has left it. -/
def put (address : Ipv4Address) (entry : Entry Pair) : ArpCache Pair :=
  { cache with arpCache := cache.arpCache.insert address entry }

def startWaitReplyTimer : ArpCache Pair :=
  if cache.waitReplyTimer.isSome then cache
  else { cache with waitReplyTimer := some (now + attributes.waitReplyTimeout) }

/-- The cache, the addresses that `m_arpRequestCallback` is called for, and what is dropped. -/
def handleWaitReplyTimeout : ArpCache Pair × List Ipv4Address × List (Ipv4Address × Pair) :=
  let requested := (cache.arpCache.items.filter fun item => item.2.isRetried attributes).map Prod.fst
  let dropped := cache.arpCache.items.flatMap fun item =>
    (if item.2.isGivenUp attributes then item.2.pending else []).map (Prod.mk item.1)
  ({ arpCache := cache.arpCache.map fun _ entry => entry.afterTimeout attributes now
     waitReplyTimer :=
      if requested = [] then none else some (now + attributes.waitReplyTimeout) },
    requested, dropped)

def pairs : List (Ipv4Address × Pair) :=
  cache.arpCache.items.flatMap fun item => item.2.pending.map (Prod.mk item.1)

def flush : ArpCache Pair := {}

def removeAutoGeneratedEntries : ArpCache Pair :=
  { cache with arpCache := cache.arpCache.filter fun _ entry => !entry.isAutoGenerated }

def remove (address : Ipv4Address) : ArpCache Pair :=
  { cache with arpCache := cache.arpCache.erase address }

@[simp] theorem lookup_put (address other : Ipv4Address) (entry : Entry Pair) :
    (cache.put address entry).lookup other = if other = address then some entry else cache.lookup other := by
  rw [lookup, put, OrderedMap.find?_insert, lookup]
  simp only [UInt32.toNat_inj]

theorem lookup_remove (address other : Ipv4Address) :
    (cache.remove address).lookup other = if other = address then none else cache.lookup other := by
  rw [lookup, remove, OrderedMap.find?_erase, lookup]
  simp only [UInt32.toNat_inj]

end ArpCache

end FISim.Arp
