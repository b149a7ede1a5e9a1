import FISim.Common
import Mathlib.Logic.Function.Basic

/-!
`CybertwinTopologyReader`: the nodes, links and superiors that it makes from a
topology file.  A node is its place in `m_nodes`; `none` is a failed assertion, a
fatal error or the use of a null pointer.
-/

namespace FISim.Topology

-- The bytes of a name.
abbrev Name := List UInt8

instance : LawfulBEq Name := inferInstanceAs (LawfulBEq (List UInt8))

-- A network as its text gives it: the prefix and the number of mask bits.
structure Subnet where
  network : UInt32
  mask : UInt32
  deriving DecidableEq, Repr

structure Link where
  target : Name
  network : Subnet
  deriving DecidableEq, Repr

structure CloudNode where
  name : Name
  links : List Link
  deriving DecidableEq, Repr

inductive NetworkType
  | csma
  | wifi
  | lte
  | uan
  | unknown
  deriving DecidableEq, Repr

structure EndCluster where
  name : Name
  numNodes : ℕ
  localNetwork : Subnet
  networkType : NetworkType
  gateways : List Link
  deriving DecidableEq, Repr

structure TopologyFile where
  coreLayer : List CloudNode
  edgeLayer : List CloudNode
  accessLayer : List EndCluster
  centralNode : Name
  deriving DecidableEq, Repr

inductive NodeKind
  | coreServer
  | edgeServer
  | endHost
  deriving DecidableEq, Repr

/-- No constructor writes `m_isCRNSRoot`: it has a value once `SetCNRSRoot` was called. -/
structure CybertwinNode where
  kind : NodeKind
  name : Name
  localAddrList : List UInt32 := []
  globalAddrList : List UInt32 := []
  parents : List ℕ := []
  upperNodeAddress : Option UInt32 := none
  isCRNSRoot : Option Bool := none
  deriving DecidableEq, Repr

structure NodeInfo where
  name : Name
  node : Option ℕ := none
  links : List Link := []
  deriving DecidableEq, Repr

-- `interfaces` are the interface addresses of all nodes, in the order they were assigned.
structure Reader where
  nodes : List CybertwinNode := []
  interfaces : List (UInt32 × ℕ) := []
  nodeInfoMap : Name → Option NodeInfo := fun _ => none
  nodeName2Ptr : Name → Option ℕ := fun _ => none
  links : List Name := []
  coreNodesList : List NodeInfo := []

namespace CybertwinNode

def addLocalIp (localIp : UInt32) (node : CybertwinNode) : CybertwinNode :=
  { node with localAddrList := node.localAddrList ++ [localIp] }

def addGlobalIp (globalIp : UInt32) (node : CybertwinNode) : CybertwinNode :=
  { node with globalAddrList := node.globalAddrList ++ [globalIp] }

def addParent (parent : ℕ) (node : CybertwinNode) : CybertwinNode :=
  if parent ∈ node.parents then node else { node with parents := node.parents ++ [parent] }

def setUpperNodeAddress (addr : UInt32) (node : CybertwinNode) : CybertwinNode :=
  { node with upperNodeAddress := some addr }

def setCNRSRoot (node : CybertwinNode) : CybertwinNode := { node with isCRNSRoot := some true }

-- `memory` is what stands where the member was never written.
def isCNRSRoot (memory : Bool) (node : CybertwinNode) : Bool := node.isCRNSRoot.getD memory

end CybertwinNode

-- `Ipv4AddressHelper`, after `SetBase`.
structure AddressHelper where
  network : UInt32
  shift : UInt32
  max : UInt32
  address : UInt32
  deriving DecidableEq, Repr

def maskNumberToIpv4Address (mask : UInt32) : UInt32 := 0xFFFFFFFF <<< (32 - mask)

def numAddressBits : ℕ → UInt32 → UInt32 → Option UInt32
  | 0, _, _ => none
  | left + 1, bits, mask =>
      if mask &&& 1 = 1 then some bits else numAddressBits left (bits + 1) (mask >>> 1)

def AddressHelper.setBase (subnet : Subnet) : Option AddressHelper := do
  let mask := maskNumberToIpv4Address subnet.mask
  if subnet.network &&& ~~~mask = 0 then
    let shift ← numAddressBits 32 0 mask
    return { network := subnet.network >>> shift, shift, max := (1 <<< shift) - 2, address := 1 }
  else none

namespace Reader

/-- `NewAddress` for the device of a node.  The address generator stops the program when the
address is zero or was given out before. -/
def newAddress (state : Reader × AddressHelper) (node : ℕ) :
    Option ((Reader × AddressHelper) × UInt32) :=
  let (reader, helper) := state
  if helper.address ≤ helper.max then
    let addr := (helper.network <<< helper.shift) ||| helper.address
    if addr = 0 ∨ addr ∈ reader.interfaces.map Prod.fst then none
    else some (({ reader with interfaces := reader.interfaces ++ [(addr, node)] },
      { helper with address := helper.address + 1 }), addr)
  else none

def assignAddresses (state : Reader × AddressHelper) : List ℕ → Option (Reader × List UInt32)
  | [] => some (state.1, [])
  | node :: rest => do
      let (state, addr) ← newAddress state node
      let (reader, later) ← assignAddresses state rest
      return (reader, addr :: later)

-- The devices are given by their nodes.
def assignIPAddresses (reader : Reader) (devices : List ℕ) (network : Subnet) :
    Option (Reader × List UInt32) := do
  let helper ← AddressHelper.setBase network
  assignAddresses (reader, helper) devices

def createP2PLink (reader : Reader) (sourceNode targetNode : ℕ) (network : Subnet) :
    Option (Reader × UInt32 × UInt32) := do
  match ← reader.assignIPAddresses [sourceNode, targetNode] network with
  | (reader, [source, target]) => return (reader, source, target)
  | _ => none

def modify (reader : Reader) (id : ℕ) (change : CybertwinNode → CybertwinNode) : Reader :=
  { reader with nodes := reader.nodes.modify id change }

def createNode (reader : Reader) (kind : NodeKind) (name : Name) : Reader × ℕ :=
  let id := reader.nodes.length
  ({ reader with
      nodes := reader.nodes ++ [{ kind, name }]
      nodeName2Ptr := Function.update reader.nodeName2Ptr name (some id) }, id)

def createCloudNode (reader : Reader) (kind : NodeKind) (node : CloudNode) : Reader × NodeInfo :=
  let (reader, id) := reader.createNode kind node.name
  let nodeInfo : NodeInfo := { name := node.name, node := some id, links := node.links }
  ({ reader with nodeInfoMap := Function.update reader.nodeInfoMap node.name (some nodeInfo) },
    nodeInfo)

def createCoreServer (reader : Reader) (node : CloudNode) : Reader :=
  let (reader, nodeInfo) := reader.createCloudNode .coreServer node
  { reader with coreNodesList := reader.coreNodesList ++ [nodeInfo] }

-- A target that is not in the map is a null pointer before the test for it.
def linkCoreServer (nodeInfo : NodeInfo) (reader : Reader) (link : Link) : Option Reader := do
  let targetInfo ← reader.nodeInfoMap link.target
  let source ← nodeInfo.node
  let target ← targetInfo.node
  if nodeInfo.name ++ link.target ∈ reader.links ∨ link.target ++ nodeInfo.name ∈ reader.links then
    return reader
  else
    let (reader, first, second) ← reader.createP2PLink source target link.network
    let reader := reader.modify source (CybertwinNode.addGlobalIp first)
    let reader := reader.modify target (CybertwinNode.addGlobalIp second)
    return { reader with
      links := (link.target ++ nodeInfo.name) :: (nodeInfo.name ++ link.target) :: reader.links }

def linkCoreServers (reader : Reader) (nodeInfo : NodeInfo) : Option Reader :=
  nodeInfo.links.foldlM (linkCoreServer nodeInfo) reader

def parseCoreCloud (reader : Reader) (nodes : List CloudNode) : Option Reader :=
  let reader := nodes.foldl createCoreServer reader
  reader.coreNodesList.foldlM linkCoreServers reader

def linkEdgeServer (edgeServer : ℕ) (reader : Reader) (link : Link) : Option Reader :=
  match reader.nodeInfoMap link.target with
  | none => some reader
  | some targetInfo => do
      let target ← targetInfo.node
      let (reader, first, second) ← reader.createP2PLink edgeServer target link.network
      let reader := reader.modify edgeServer (CybertwinNode.addParent target)
      let reader := reader.modify edgeServer (CybertwinNode.setUpperNodeAddress second)
      return reader.modify edgeServer (CybertwinNode.addGlobalIp first)

def parseEdgeServer (reader : Reader) (node : CloudNode) : Option Reader :=
  let edgeServer := reader.nodes.length
  let (reader, nodeInfo) := reader.createCloudNode .edgeServer node
  nodeInfo.links.foldlM (linkEdgeServer edgeServer) reader

def parseEdgeCloud (reader : Reader) (nodes : List CloudNode) : Option Reader :=
  nodes.foldlM parseEdgeServer reader

def hostName (cluster : Name) (index : ℕ) : Name :=
  cluster ++ [95] ++ (Nat.toDigits 10 index).map Char.toUInt8

def createHosts (reader : Reader) (cluster : EndCluster) : Reader × List ℕ :=
  ((List.range cluster.numNodes).foldl
      (fun reader index => (reader.createNode .endHost (hostName cluster.name index)).1) reader,
    List.range' reader.nodes.length cluster.numNodes)

/-- A network of hosts over one medium; the first of them is its leader. -/
def createLan (reader : Reader) (cluster : EndCluster) : Option (Reader × ℕ × List ℕ) := do
  let (reader, hosts) := reader.createHosts cluster
  let (reader, addresses) ← reader.assignIPAddresses hosts cluster.localNetwork
  let reader := (hosts.zip addresses).foldl
    (fun reader host => reader.modify host.1 (CybertwinNode.addLocalIp host.2)) reader
  let leader ← hosts.head?
  return (reader, leader, hosts)

def createCsmaNetwork (reader : Reader) (csma : EndCluster) : Option (Reader × ℕ × List ℕ) :=
  reader.createLan csma

-- The access point is the first host and leads the stations in the order of the addresses too.
def createWifiNetwork (reader : Reader) (wifi : EndCluster) : Option (Reader × ℕ × List ℕ) :=
  reader.createLan wifi

/-- The nodes of an LTE or UAN network are no `CybertwinEndHost`s, so that the cast of the first
one fails; an unknown network has no router. -/
def createNetwork (reader : Reader) (cluster : EndCluster) : Option (Reader × ℕ × List ℕ) :=
  match cluster.networkType with
  | .csma => reader.createCsmaNetwork cluster
  | .wifi => reader.createWifiNetwork cluster
  | .lte | .uan | .unknown => none

def cast? (reader : Reader) (kind : NodeKind) (id : ℕ) : Option CybertwinNode :=
  reader.nodes[id]?.filter fun node => node.kind = kind

def attachHost (gateway : ℕ) (address : UInt32) (reader : Reader) (host : ℕ) : Reader :=
  (reader.modify host (CybertwinNode.addParent gateway)).modify host
    (CybertwinNode.setUpperNodeAddress address)

def parseEndCluster (reader : Reader) (cluster : EndCluster) : Option Reader := do
  let nodeInfo : NodeInfo := { name := cluster.name }
  let reader := { reader with
    nodeInfoMap := Function.update reader.nodeInfoMap cluster.name (some nodeInfo) }
  let (reader, router, endNodes) ← reader.createNetwork cluster
  let link ← cluster.gateways.head?
  let gatewayInfo ← reader.nodeInfoMap link.target
  let gateway ← gatewayInfo.node
  let (reader, _, address) ← reader.createP2PLink router gateway link.network
  let reader := endNodes.foldl (attachHost gateway address) reader
  let _ ← reader.cast? .edgeServer gateway
  return reader.modify gateway (CybertwinNode.addGlobalIp address)

def parseAccessNetwork (reader : Reader) (nodes : List EndCluster) : Option Reader :=
  nodes.foldlM parseEndCluster reader

def configUpper (centralNode : Name) (centralNodeAddress : UInt32) (reader : Reader)
    (nodeInfo : NodeInfo) : Option Reader :=
  if nodeInfo.name = centralNode then some reader
  else do
    let node ← reader.nodeName2Ptr nodeInfo.name
    let _ ← reader.cast? .coreServer node
    return reader.modify node (CybertwinNode.setUpperNodeAddress centralNodeAddress)

def configCNRS (reader : Reader) (centralNode : Name) : Option Reader := do
  let node ← reader.nodeName2Ptr centralNode
  let coreServer ← reader.cast? .coreServer node
  let reader := reader.modify node CybertwinNode.setCNRSRoot
  let centralNodeAddress ← coreServer.globalAddrList.head?
  reader.coreNodesList.foldlM (configUpper centralNode centralNodeAddress) reader

def read (file : TopologyFile) : Option Reader := do
  let reader ← parseCoreCloud {} file.coreLayer
  let reader ← reader.parseEdgeCloud file.edgeLayer
  let reader ← reader.parseAccessNetwork file.accessLayer
  reader.configCNRS file.centralNode

-- The superior of the service that the node installs; the root of the services has none.
def installCNRSApp (reader : Reader) (node : CybertwinNode) : Option (Option UInt32) :=
  match node.upperNodeAddress with
  | some addr => some (some addr)
  | none =>
      match node.parents with
      | [] => some none
      | parent :: _ => do
          let interface ← reader.interfaces.find? fun interface => interface.2 = parent
          return some interface.1

-- The node that has the address on an interface.
def owner (reader : Reader) (address : UInt32) : Option ℕ := reader.interfaces.lookup address

def superior (reader : Reader) (id : ℕ) : Option ℕ := do
  let node ← reader.nodes[id]?
  let address ← node.upperNodeAddress
  reader.owner address

end Reader

end FISim.Topology
