import FISim.Routing.StaticRouting
import Mathlib.Data.List.Sort

/-!
`GlobalRouteManagerImpl`: the link state database, the vertices of the shortest path
tree with their exits from the root, the queue of candidates, and the calculation
itself.  `none` is a failed assertion, a null pointer or a loop that does not end.
-/

namespace FISim.Routing

inductive LinkType
  | unknown
  | pointToPoint
  | transitNetwork
  | stubNetwork
  | virtualLink
  deriving DecidableEq, Repr

structure GlobalRoutingLinkRecord where
  linkType : LinkType
  linkId : Ipv4Address
  linkData : Ipv4Address
  metric : UInt16
  deriving DecidableEq, Repr

-- External LSAs are kept in a list of their own.
inductive LSType
  | unknown
  | routerLSA
  | networkLSA
  | summaryLSA
  | summaryLSAASBR
  deriving DecidableEq, Repr

structure GlobalRoutingLSA where
  lsType : LSType
  linkStateId : Ipv4Address
  linkRecords : List GlobalRoutingLinkRecord := []
  networkLSANetworkMask : Ipv4Mask := 0
  attachedRouters : List Ipv4Address := []
  deriving DecidableEq, Repr

/-- The database is a map from the link state ids, which are in order. -/
structure GlobalRouteManagerLSDB where
  database : List GlobalRoutingLSA
  sorted : database.Pairwise fun one two => one.linkStateId < two.linkStateId

namespace GlobalRouteManagerLSDB

def getLSA (lsdb : GlobalRouteManagerLSDB) (addr : Ipv4Address) : Option GlobalRoutingLSA :=
  lsdb.database.find? fun lsa => lsa.linkStateId = addr

def getLSAByLinkData (lsdb : GlobalRouteManagerLSDB) (addr : Ipv4Address) :
    Option GlobalRoutingLSA :=
  lsdb.database.find? fun lsa =>
    lsa.linkRecords.any fun lr => lr.linkType = .transitNetwork ∧ lr.linkData = addr

end GlobalRouteManagerLSDB

-- The address of the next hop and the number of the outgoing interface.
abbrev NodeExit := Ipv4Address × ℤ

/-- A parent is known by its id: there is one vertex for each LSA in the tree.  The type and the id
of a vertex are those of its LSA. -/
structure SPFVertex where
  lsa : GlobalRoutingLSA
  distanceFromRoot : UInt32 := 0xffffffff
  ecmpRootExits : List NodeExit := []
  parents : List Ipv4Address := []
  deriving DecidableEq, Repr

-- `std::list::unique`.
def uniq {Item : Type} [DecidableEq Item] : List Item → List Item
  | [] => []
  | [item] => [item]
  | item :: next :: rest =>
      if item = next then uniq (next :: rest) else item :: uniq (next :: rest)

def exitLe (one two : NodeExit) : Prop := one.1 < two.1 ∨ (one.1 = two.1 ∧ one.2 ≤ two.2)

instance (one two : NodeExit) : Decidable (exitLe one two) :=
  inferInstanceAs (Decidable (_ ∨ _))

namespace SPFVertex

def vertexId (vertex : SPFVertex) : Ipv4Address := vertex.lsa.linkStateId

def vertexType (vertex : SPFVertex) : LSType := vertex.lsa.lsType

def setDistanceFromRoot (vertex : SPFVertex) (distance : UInt32) : SPFVertex :=
  { vertex with distanceFromRoot := distance }

def setParent (vertex parent : SPFVertex) : SPFVertex :=
  { vertex with parents := [parent.vertexId] }

def getParent (vertex : SPFVertex) : Option Ipv4Address := vertex.parents.head?

/-- The parents are put in the order of their places in memory. -/
def mergeParent (vertex : SPFVertex) (pointer : Ipv4Address → ℕ) (v : SPFVertex) : SPFVertex :=
  let parents := (vertex.parents ++ v.parents).insertionSort fun one two =>
    pointer one ≤ pointer two
  { vertex with parents := uniq parents }

def setRootExitDirection (vertex : SPFVertex) (exit : NodeExit) : SPFVertex :=
  { vertex with ecmpRootExits := [exit] }

def getRootExitDirection (vertex : SPFVertex) : Option NodeExit := vertex.ecmpRootExits.head?

def mergeRootExitDirections (vertex v : SPFVertex) : SPFVertex :=
  let exits := (vertex.ecmpRootExits ++ v.ecmpRootExits).insertionSort exitLe
  { vertex with ecmpRootExits := uniq exits }

def inheritAllRootExitDirections (vertex v : SPFVertex) : SPFVertex :=
  { vertex with ecmpRootExits := v.ecmpRootExits }

/-- The record is only looked at for a router. -/
def distanceThrough (v : SPFVertex) (l : Option GlobalRoutingLinkRecord) : Option UInt32 :=
  if v.lsa.lsType = .routerLSA then l.map fun l => v.distanceFromRoot + l.metric.toUInt32
  else some v.distanceFromRoot

end SPFVertex

namespace CandidateQueue

/-- The nearer vertex is first, and of two at one distance a network is before a router. -/
def compareSPFVertex (v1 v2 : SPFVertex) : Bool :=
  v1.distanceFromRoot < v2.distanceFromRoot ||
    (v1.distanceFromRoot = v2.distanceFromRoot &&
      (v1.vertexType = .networkLSA && v2.vertexType = .routerLSA))

-- The place is `std::upper_bound`.
def push (vNew : SPFVertex) : List SPFVertex → List SPFVertex
  | [] => [vNew]
  | v :: rest => if compareSPFVertex vNew v then vNew :: v :: rest else v :: push vNew rest

def find (candidates : List SPFVertex) (addr : Ipv4Address) : Option SPFVertex :=
  candidates.find? fun v => v.vertexId = addr

-- The candidate is changed where it stands.
def replace (cw : SPFVertex) : List SPFVertex → List SPFVertex
  | [] => []
  | v :: rest => if v.vertexId = cw.vertexId then cw :: rest else v :: replace cw rest

-- `std::list::sort` is stable.
def reorder (candidates : List SPFVertex) : List SPFVertex :=
  candidates.insertionSort fun v1 v2 => ¬ compareSPFVertex v2 v1

end CandidateQueue

inductive SPFStatus
  | notExplored
  | candidate
  | inSpfTree
  deriving DecidableEq, Repr

/-- The status of each LSA, and the candidates. -/
structure SPFState where
  status : Ipv4Address → SPFStatus
  candidates : List SPFVertex

def SPFState.setStatus (state : SPFState) (id : Ipv4Address) (status : SPFStatus) : SPFState :=
  { state with status := Function.update state.status id status }

def getNextLinkFrom (id : Ipv4Address) (skip foundPrevLink : Bool) :
    List GlobalRoutingLinkRecord → Option GlobalRoutingLinkRecord
  | [] => none
  | l :: rest =>
      if l.linkId = id then
        if foundPrevLink = false then getNextLinkFrom id skip true rest
        else if skip = false then some l
        else getNextLinkFrom id false foundPrevLink rest
      else getNextLinkFrom id skip foundPrevLink rest

def spfGetNextLink (v w : SPFVertex) (prevLink : Option GlobalRoutingLinkRecord) :
    Option GlobalRoutingLinkRecord :=
  getNextLinkFrom w.vertexId prevLink.isSome prevLink.isNone v.lsa.linkRecords

/-- The exits of a router behind a network of the root.  From the second turn on the loop makes the
same step again and again, so that it ends at once or never. -/
def setNextHops (v : SPFVertex) : ℕ → Option GlobalRoutingLinkRecord → SPFVertex → Option SPFVertex
  | 0, _, _ => none
  | fuel + 1, linkRemote, w =>
      match spfGetNextLink w v linkRemote with
      | none => some w
      | some linkRemote => do
          let exit ← v.getRootExitDirection
          setNextHops v fuel (some linkRemote)
            (w.setRootExitDirection (linkRemote.linkData, exit.2))

/-- The calculation for one root.  `outgoing` is `FindOutgoingInterfaceId`, which asks the root's
node for the interface with an address of the prefix; `pointer` is the place of a vertex in memory. -/
structure GlobalRouteManager where
  lsdb : GlobalRouteManagerLSDB
  spfroot : Ipv4Address
  outgoing : Ipv4Address → Ipv4Mask → ℤ
  pointer : Ipv4Address → ℕ

namespace GlobalRouteManager

def findOutgoingInterfaceId (manager : GlobalRouteManager) (a : Ipv4Address)
    (amask : Ipv4Mask) : ℤ :=
  manager.outgoing a amask

def spfNexthopCalculation (manager : GlobalRouteManager) (v w : SPFVertex)
    (l : Option GlobalRoutingLinkRecord) (distance : UInt32) : Option SPFVertex := do
  let w ←
    if v.vertexId = manager.spfroot then
      if w.vertexType = .routerLSA then do
        let l ← l
        let linkRemote ← spfGetNextLink w v none
        let outIf := manager.findOutgoingInterfaceId l.linkData Ipv4Mask.getOnes
        some (w.setRootExitDirection (linkRemote.linkData, outIf))
      else if w.vertexType = .networkLSA then
        let outIf := manager.findOutgoingInterfaceId w.lsa.linkStateId w.lsa.networkLSANetworkMask
        some (w.setRootExitDirection (0, outIf))
      else none
    else if v.vertexType = .networkLSA then
      if v.getParent = some manager.spfroot then
        if w.vertexType = .routerLSA then setNextHops v (w.lsa.linkRecords.length + 1) none w
        else none
      else do
        let exit ← v.getRootExitDirection
        some (w.setRootExitDirection exit)
    else some (w.inheritAllRootExitDirections v)
  return (w.setDistanceFromRoot distance).setParent v

/-- One turn of the loop of `SPFNext`, for a neighbour that is in the database. -/
def considerNeighbour (manager : GlobalRouteManager) (v : SPFVertex) (state : SPFState)
    (l : Option GlobalRoutingLinkRecord) (w_lsa : GlobalRoutingLSA) : Option SPFState := do
  match state.status w_lsa.linkStateId with
  | .inSpfTree => some state
  | status =>
      let distance ← v.distanceThrough l
      if status = .notExplored then do
        let w ← manager.spfNexthopCalculation v { lsa := w_lsa } l distance
        let state := state.setStatus w_lsa.linkStateId .candidate
        return { state with candidates := CandidateQueue.push w state.candidates }
      else do
        let cw ← CandidateQueue.find state.candidates w_lsa.linkStateId
        if cw.distanceFromRoot < distance then return state
        else if cw.distanceFromRoot = distance then do
          let w ← manager.spfNexthopCalculation v { lsa := w_lsa } l distance
          let cw := (cw.mergeRootExitDirections w).mergeParent manager.pointer w
          return { state with candidates := CandidateQueue.replace cw state.candidates }
        else do
          let cw ← manager.spfNexthopCalculation v cw l distance
          return { state with
            candidates := CandidateQueue.reorder (CandidateQueue.replace cw state.candidates) }

def examineLink (manager : GlobalRouteManager) (v : SPFVertex) (state : SPFState)
    (l : GlobalRoutingLinkRecord) : Option SPFState :=
  match l.linkType with
  | .stubNetwork => some state
  | .pointToPoint | .transitNetwork => do
      let w_lsa ← manager.lsdb.getLSA l.linkId
      manager.considerNeighbour v state (some l) w_lsa
  | .unknown | .virtualLink => none

def examineRouter (manager : GlobalRouteManager) (v : SPFVertex) (state : SPFState)
    (router : Ipv4Address) : Option SPFState :=
  match manager.lsdb.getLSAByLinkData router with
  | none => some state
  | some w_lsa => manager.considerNeighbour v state none w_lsa

def spfNext (manager : GlobalRouteManager) (v : SPFVertex) (state : SPFState) : Option SPFState :=
  match v.vertexType with
  | .routerLSA => v.lsa.linkRecords.foldlM (manager.examineLink v) state
  | .networkLSA => v.lsa.attachedRouters.foldlM (manager.examineRouter v) state
  | _ => some state

/-- The loop of `SPFCalculate`: the vertices as they are popped, for which the routes are added. -/
def spfLoop (manager : GlobalRouteManager) : ℕ → SPFVertex → SPFState → Option (List SPFVertex)
  | 0, _, _ => none
  | fuel + 1, v, state => do
      let state ← manager.spfNext v state
      match state.candidates with
      | [] => return []
      | next :: rest =>
          if next.vertexType = .routerLSA ∨ next.vertexType = .networkLSA then do
            let state := { state with candidates := rest }
            let later ← manager.spfLoop fuel next (state.setStatus next.vertexId .inSpfTree)
            return next :: later
          else none

/-- The calculation without the shortcut for stub nodes. -/
def spfTree (manager : GlobalRouteManager) (fuel : ℕ) : Option (List SPFVertex) := do
  let lsa ← manager.lsdb.getLSA manager.spfroot
  let state : SPFState := { status := fun _ => .notExplored, candidates := [] }
  manager.spfLoop fuel { lsa, distanceFromRoot := 0 }
    (state.setStatus manager.spfroot .inSpfTree)

/-- Whether the root is a stub node, and the exit of the default route that it gets then. -/
def checkForStubNode (manager : GlobalRouteManager) : Option (Bool × Option NodeExit) := do
  let rlsa ← manager.lsdb.getLSA manager.spfroot
  let transits := rlsa.linkRecords.filter fun l =>
    l.linkType = .transitNetwork ∨ l.linkType = .pointToPoint
  match transits with
  | [] => return (true, none)
  | [transitLink] =>
      if transitLink.linkType = .transitNetwork then return (false, none)
      else do
        let w_lsa ← manager.lsdb.getLSA transitLink.linkId
        let back := w_lsa.linkRecords.find? fun lr =>
          lr.linkType = .pointToPoint ∧ lr.linkId = rlsa.linkStateId
        match back with
        | none => return (false, none)
        | some lr =>
            return (true,
              some (lr.linkData, manager.findOutgoingInterfaceId transitLink.linkData Ipv4Mask.getOnes))
  | _ => return (false, none)

/-- The tree is not calculated for a stub node. -/
def spfCalculate (manager : GlobalRouteManager) (nodes fuel : ℕ) :
    Option (Option NodeExit × List SPFVertex) := do
  let (stub, exit) ← manager.checkForStubNode
  if 0 < nodes ∧ stub then return (exit, [])
  else do
    let tree ← manager.spfTree fuel
    return (none, tree)

end GlobalRouteManager

end FISim.Routing
