import FISim.Header
import FISim.Lib.Channel

/-!
`CCNL4Protocol` with its consumers and producers.  The network below takes a
packet to the node that its destination is routed to and keeps the order of the
packets between two nodes.
-/

namespace FISim.ContentCentric

abbrev ContentName := List UInt8

abbrev PrefixTable := ContentName → Option UInt32

-- The content of a producer is what its file holds, if the file opens.
structure Producer where
  contentName : ContentName
  contentFile : Option (List UInt8)
  deriving DecidableEq, Repr

structure Setup (Node : Type) where
  address : Node → UInt32
  route : UInt32 → Option Node
  consumers : Node → List ContentName
  producers : Node → List Producer
  contentPrefixToHostAddress : Node → ContentName → Option UInt32

structure Datagram (Node : Type) where
  sender : Node
  receiver : Node
  source : UInt32
  packet : Packet
  deriving DecidableEq, Repr

/-- What happens at a node, as far as its consumers and the hosts it serves can tell. -/
inductive Observation (Node : Type)
  | asked (node : Node) (consumer : ℕ)
  | delivered (node : Node) (consumer : ℕ) (contentName : ContentName) (payload : Packet)
  | sentData (node : Node) (destination : UInt32) (contentName : ContentName)
  deriving DecidableEq, Repr

-- `log` is not the program's: it records what was observed.
structure Network (Node : Type) where
  pendingInterestTable : Node → ContentName → Option UInt32 := fun _ _ => none
  inFlight : List (Datagram Node) := []
  log : List (Observation Node) := []

inductive Event (Node : Type)
  | getContent (node : Node) (consumer : ℕ)
  | deliver (sender receiver : Node)
  deriving DecidableEq, Repr

-- The address that a default `Ipv4Address` holds.
def uninitialized : UInt32 := 0x66666666

/-- The longest prefix before a slash that has a host; a slash at the start is passed over. -/
def getHostAddressFromContentName (table : ContentName → Option UInt32)
    (contentName : ContentName) : UInt32 :=
  (List.range' 1 (contentName.length - 1)).foldl (fun hostAddress pos =>
    if contentName[pos]? = some 47 then (table (contentName.take pos)).getD hostAddress
    else hostAddress) uninitialized

/-- The blocks of the loop that reads a file until its end is met, which is in a short block. -/
def contentBlocks (content : List UInt8) : List Packet :=
  if content.length < 16 then [content]
  else content.take 16 :: contentBlocks (content.drop 16)
termination_by content.length
decreasing_by
  rw [List.length_drop]
  omega

-- `erase(find('\0'))` throws when there is no null character.
def eraseNull (contentName : ContentName) : Option ContentName :=
  if 0 ∈ contentName then some (contentName.takeWhile fun character => character ≠ 0) else none

namespace Network

variable {Node : Type} (setup : Setup Node)

def observe (net : Network Node) (observation : Observation Node) : Network Node :=
  { net with log := net.log ++ [observation] }

def send (net : Network Node) (node : Node) (saddr daddr : UInt32) (packet : Packet) :
    Network Node :=
  match setup.route daddr with
  | none => net
  | some receiver =>
      { net with inFlight := net.inFlight ++
          [{ sender := node, receiver, source := saddr, packet }] }

def sendInterest (net : Network Node) (node : Node) (contentName : ContentName) :
    Option (Network Node) := do
  let packet ← CCNHeader.serialize { contentName, type := CCNHeader.interest }
  let destAddress :=
    getHostAddressFromContentName (setup.contentPrefixToHostAddress node) contentName
  return if destAddress = 0 then net
    else net.send setup node (setup.address node) destAddress packet

variable [DecidableEq Node]

-- `m_pendingInterestTable[contentName]` makes an entry where there is none.
def sendData (net : Network Node) (node : Node) (payload : Packet) (contentName : ContentName) :
    Option (Network Node) := do
  let header ← CCNHeader.serialize { contentName, type := CCNHeader.data }
  let destAddress := (net.pendingInterestTable node contentName).getD uninitialized
  let net := { net with
    pendingInterestTable := Function.update net.pendingInterestTable node
      (Function.update (net.pendingInterestTable node) contentName (some destAddress)) }
  return if destAddress = 0 then net
    else (net.observe (.sentData node destAddress contentName)).send setup node
      (setup.address node) destAddress (header ++ payload)

def sendContentResponse (net : Network Node) (node : Node) (producer : Producer) :
    Option (Network Node) :=
  match producer.contentFile with
  | none => some net
  | some content =>
      (contentBlocks content).foldlM
        (fun net payload => net.sendData setup node payload producer.contentName) net

def getContent (net : Network Node) (node : Node) (consumer : ℕ) : Option (Network Node) := do
  let contentName ← (setup.consumers node)[consumer]?
  (net.observe (.asked node consumer)).sendInterest setup node contentName

def handleInterestPacket (net : Network Node) (node : Node) (header : CCNHeader)
    (saddr : UInt32) : Option (Network Node) := do
  let contentName ← eraseNull header.contentName
  let net := { net with
    pendingInterestTable := Function.update net.pendingInterestTable node
      (Function.update (net.pendingInterestTable node) contentName (some saddr)) }
  match (setup.producers node).find? fun producer => producer.contentName = contentName with
  | some producer => net.sendContentResponse setup node producer
  | none => return net

-- `NotifyRecv` takes the header off and calls the consumer.
def handleDataPacket (net : Network Node) (node : Node) (header : CCNHeader) (payload : Packet) :
    Option (Network Node) := do
  let contentName ← eraseNull header.contentName
  match (setup.consumers node).findIdx? fun name => name = contentName with
  | some consumer =>
      return net.observe (.delivered node consumer contentName payload)
  | none => return net

def receive (net : Network Node) (node : Node) (saddr : UInt32) (packet : Packet) :
    Option (Network Node) := do
  let (header, payload) ← CCNHeader.deserialize packet
  if header.type = CCNHeader.interest then net.handleInterestPacket setup node header saddr
  else if header.type = CCNHeader.data then net.handleDataPacket setup node header payload
  else return net

def deliver (net : Network Node) (sender receiver : Node) : Option (Network Node) := do
  let (datagram, inFlight) ← Channel.takeFirst
    (fun datagram : Datagram Node => datagram.sender = sender ∧ datagram.receiver = receiver)
    net.inFlight
  ({ net with inFlight } : Network Node).receive setup receiver datagram.source datagram.packet

def step (net : Network Node) : Event Node → Option (Network Node)
  | .getContent node consumer => net.getContent setup node consumer
  | .deliver sender receiver => net.deliver setup sender receiver

end Network

structure CCNL4Protocol where
  contentPrefixToHostAddress : PrefixTable
  pendingInterestTable : PrefixTable

-- A packet on its way down, with its destination.
abbrev Handed := Packet × UInt32

namespace CCNL4Protocol

variable (protocol : CCNL4Protocol)

/-- `SendInterest`, with what it hands to the lower layer. -/
def sendInterest (packet : Packet) (contentName : ContentName) :
    Option (CCNL4Protocol × Option Handed) := do
  let header ← CCNHeader.serialize { contentName, type := CCNHeader.interest }
  let destAddress := getHostAddressFromContentName protocol.contentPrefixToHostAddress contentName
  return (protocol, if destAddress = 0 then none else some (header ++ packet, destAddress))

/-- `SendData`, whose lookup makes an entry where there is none. -/
def sendData (packet : Packet) (contentName : ContentName) :
    Option (CCNL4Protocol × Option Handed) := do
  let header ← CCNHeader.serialize { contentName, type := CCNHeader.data }
  let destAddress := (protocol.pendingInterestTable contentName).getD uninitialized
  let protocol := { protocol with
    pendingInterestTable :=
      Function.update protocol.pendingInterestTable contentName (some destAddress) }
  return (protocol, if destAddress = 0 then none else some (header ++ packet, destAddress))

end CCNL4Protocol

section Nodes

variable {Node : Type} [DecidableEq Node] (setup : Setup Node) (net : Network Node) (node : Node)

def Network.protocolAt : CCNL4Protocol where
  contentPrefixToHostAddress := setup.contentPrefixToHostAddress node
  pendingInterestTable := net.pendingInterestTable node

def Network.handDown : Option Handed → Network Node
  | none => net
  | some (packet, destAddress) =>
      net.send setup node (setup.address node) destAddress packet

omit [DecidableEq Node] in
theorem Network.sendInterest_eq (contentName : ContentName) :
    net.sendInterest setup node contentName =
      ((net.protocolAt setup node).sendInterest [] contentName).map
        fun sent => net.handDown setup node sent.2 := by
  cases written : CCNHeader.serialize { contentName, type := CCNHeader.interest } with
  | none => simp [Network.sendInterest, CCNL4Protocol.sendInterest, written]
  | some header =>
      simp only [Network.sendInterest, CCNL4Protocol.sendInterest, written,
        Option.bind_eq_bind, Option.bind_some, Option.pure_def, Option.map_some,
        Network.protocolAt, List.append_nil]
      split
      · rfl
      · rfl

theorem Network.sendData_eq (payload : Packet) (contentName : ContentName) :
    net.sendData setup node payload contentName =
      ((net.protocolAt setup node).sendData payload contentName).map fun sent =>
        let stored := { net with
          pendingInterestTable := Function.update net.pendingInterestTable node
            sent.1.pendingInterestTable }
        match sent.2 with
        | none => stored
        | some (packet, destAddress) =>
            (stored.observe (.sentData node destAddress contentName)).handDown setup node
              (some (packet, destAddress)) := by
  cases written : CCNHeader.serialize { contentName, type := CCNHeader.data } with
  | none => simp [Network.sendData, CCNL4Protocol.sendData, written]
  | some header =>
      simp only [Network.sendData, CCNL4Protocol.sendData, written, Option.bind_eq_bind,
        Option.bind_some, Option.pure_def, Option.map_some, Network.protocolAt]
      by_cases zero : (net.pendingInterestTable node contentName).getD uninitialized = 0
      · simp only [zero, if_true]
      · simp only [zero, if_false]
        rfl

end Nodes

end FISim.ContentCentric
