import FISim.Routing.LinkState

/-!
`Ipv4GlobalRouting`: the tables of host routes, network routes and external routes, the
lookup in them, and how `SPFCalculate` fills them from the vertices of the tree.
-/

namespace FISim.Routing

structure Ipv4GlobalRouting where
  hostRoutes : List Ipv4RoutingTableEntry := []
  networkRoutes : List Ipv4RoutingTableEntry := []
  asExternalRoutes : List Ipv4RoutingTableEntry := []

namespace Ipv4GlobalRouting

def addHostRouteTo (routing : Ipv4GlobalRouting) (dest nextHop : Ipv4Address)
    (interface : UInt32) : Ipv4GlobalRouting :=
  { routing with hostRoutes := routing.hostRoutes ++ [⟨dest, Ipv4Mask.getOnes, nextHop, interface⟩] }

def addNetworkRouteTo (routing : Ipv4GlobalRouting) (network : Ipv4Address) (networkMask : Ipv4Mask)
    (nextHop : Ipv4Address) (interface : UInt32) : Ipv4GlobalRouting :=
  { routing with
    networkRoutes := routing.networkRoutes ++ [⟨network, networkMask, nextHop, interface⟩] }

variable (ipv4 : Ipv4) (routing : Ipv4GlobalRouting) (dest : Ipv4Address) (oif : Option NetDevice)

/-- The routes that `LookupGlobal` selects one of.  `oif` is the device that is asked for, if any. -/
def allRoutes : List Ipv4RoutingTableEntry :=
  let requested (route : Ipv4RoutingTableEntry) : Bool :=
    oif.all fun device => device = ipv4.getNetDevice route.interface
  let hosts := routing.hostRoutes.filter fun i => i.dest = dest && requested i
  if hosts ≠ [] then hosts
  else
    let networks := routing.networkRoutes.filter fun j =>
      j.destNetworkMask.isMatch dest j.dest && requested j
    if networks ≠ [] then networks
    else
      (routing.asExternalRoutes.find? fun k =>
        k.destNetworkMask.isMatch dest k.dest && requested k).toList

/-- `selectIndex` is the number that is drawn for random ECMP routing, and 0 otherwise. -/
def selectRoute (selectIndex : ℕ) : Option Ipv4RoutingTableEntry :=
  (routing.allRoutes ipv4 dest oif)[selectIndex]?

def lookupGlobal (selectIndex : ℕ) : Option Ipv4Route :=
  (routing.selectRoute ipv4 dest oif selectIndex).map fun route => {
    dest := route.dest
    source := (ipv4.getAddress route.interface 0).getLocal
    gateway := route.gateway
    outputDevice := ipv4.getNetDevice route.interface }

end Ipv4GlobalRouting

namespace GlobalRouteManager

/-- A route for each exit by which the root has an interface. -/
def addRoutes (v : SPFVertex) (add : Ipv4GlobalRouting → Ipv4Address → UInt32 → Ipv4GlobalRouting)
    (routing : Ipv4GlobalRouting) : Ipv4GlobalRouting :=
  v.ecmpRootExits.foldl (fun routing exit =>
    if 0 ≤ exit.2 then add routing exit.1 (UInt32.ofInt exit.2) else routing) routing

def spfIntraAddRouter (routing : Ipv4GlobalRouting) (v : SPFVertex) : Ipv4GlobalRouting :=
  v.lsa.linkRecords.foldl (fun routing lr =>
    if lr.linkType ≠ .pointToPoint then routing
    else addRoutes v (fun routing => routing.addHostRouteTo lr.linkData) routing) routing

def spfIntraAddTransit (routing : Ipv4GlobalRouting) (v : SPFVertex) : Ipv4GlobalRouting :=
  let tempmask := v.lsa.networkLSANetworkMask
  let tempip := v.lsa.linkStateId &&& tempmask
  addRoutes v (fun routing => routing.addNetworkRouteTo tempip tempmask) routing

def spfIntraAdd (routing : Ipv4GlobalRouting) (v : SPFVertex) : Ipv4GlobalRouting :=
  if v.vertexType = .routerLSA then spfIntraAddRouter routing v else spfIntraAddTransit routing v

/-- What `SPFCalculate` writes to the tables of the root.  `stubRoutes` and `externalRoutes` are
those that `SPFProcessStubs` and `ProcessASExternals` add in the end. -/
def initializeRoutes (manager : GlobalRouteManager) (nodes fuel : ℕ)
    (stubRoutes externalRoutes : List Ipv4RoutingTableEntry) : Option Ipv4GlobalRouting := do
  let (stub, exit) ← manager.checkForStubNode
  if 0 < nodes ∧ stub then
    return exit.elim {} fun exit =>
      ({} : Ipv4GlobalRouting).addNetworkRouteTo 0 Ipv4Mask.getZero exit.1 (UInt32.ofInt exit.2)
  else do
    let tree ← manager.spfTree fuel
    let routing := tree.foldl spfIntraAdd {}
    return { routing with
      networkRoutes := routing.networkRoutes ++ stubRoutes
      asExternalRoutes := routing.asExternalRoutes ++ externalRoutes }

section Initialize

variable {manager : GlobalRouteManager} {nodes fuel : ℕ}
  {stubRoutes externalRoutes : List Ipv4RoutingTableEntry} {stub : Bool} {exit : Option NodeExit}

theorem initializeRoutes_stub (checked : manager.checkForStubNode = some (true, exit))
    (nonempty : 0 < nodes) :
    manager.initializeRoutes nodes fuel stubRoutes externalRoutes =
      some (exit.elim {} fun exit =>
        ({} : Ipv4GlobalRouting).addNetworkRouteTo 0 Ipv4Mask.getZero exit.1
          (UInt32.ofInt exit.2)) := by
  simp [initializeRoutes, checked, nonempty]

theorem initializeRoutes_tree {tree : List SPFVertex}
    (checked : manager.checkForStubNode = some (stub, exit)) (full : ¬ (0 < nodes ∧ stub))
    (ran : manager.spfTree fuel = some tree) :
    ∃ routing, manager.initializeRoutes nodes fuel stubRoutes externalRoutes = some routing ∧
      routing.hostRoutes = (tree.foldl spfIntraAdd {}).hostRoutes := by
  simp only [initializeRoutes, checked, ran, Option.bind_eq_bind, Option.bind_some, if_neg full]
  exact ⟨_, rfl, rfl⟩

end Initialize

end GlobalRouteManager

end FISim.Routing
