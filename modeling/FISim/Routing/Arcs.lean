import FISim.Lib.ShortestPaths
import FISim.Routing.LinkState

/-!
The link state database as a graph: its arcs, those that `SPFNext` follows, and the
exits that `SPFNexthopCalculation` hands on along each of them.
-/

namespace FISim.Routing

open ShortestPaths

namespace GlobalRouteManagerLSDB

theorem eq_of_linkStateId (lsdb : GlobalRouteManagerLSDB) {one two : GlobalRoutingLSA}
    (first : one ∈ lsdb.database) (second : two ∈ lsdb.database)
    (same : one.linkStateId = two.linkStateId) : one = two := by
  have distinct : (lsdb.database.map (·.linkStateId)).Nodup :=
    List.pairwise_map.mpr (lsdb.sorted.imp fun less => (UInt32.ne_of_lt less))
  exact List.inj_on_of_nodup_map distinct first second same

theorem getLSA_eq_some {lsdb : GlobalRouteManagerLSDB} {addr : Ipv4Address}
    {lsa : GlobalRoutingLSA} :
    lsdb.getLSA addr = some lsa ↔ lsa ∈ lsdb.database ∧ lsa.linkStateId = addr := by
  constructor
  · intro found
    exact ⟨List.mem_of_find?_eq_some found, by simpa using List.find?_some found⟩
  · rintro ⟨member, rfl⟩
    cases found : lsdb.getLSA lsa.linkStateId with
    | none =>
        have absent := List.find?_eq_none.mp found lsa member
        simp at absent
    | some other =>
        have same : other.linkStateId = lsa.linkStateId := by simpa using List.find?_some found
        rw [lsdb.eq_of_linkStateId (List.mem_of_find?_eq_some found) member same]

theorem getLSAByLinkData_eq_some {lsdb : GlobalRouteManagerLSDB} {addr : Ipv4Address}
    {lsa : GlobalRoutingLSA} (found : lsdb.getLSAByLinkData addr = some lsa) :
    lsa ∈ lsdb.database ∧
      ∃ l ∈ lsa.linkRecords, l.linkType = .transitNetwork ∧ l.linkData = addr :=
  ⟨List.mem_of_find?_eq_some found, by simpa using List.find?_some found⟩

end GlobalRouteManagerLSDB

theorem getNextLinkFrom_eq (id : Ipv4Address) (skip foundPrevLink : Bool)
    (links : List GlobalRoutingLinkRecord) :
    getNextLinkFrom id skip foundPrevLink links =
      (links.filter fun l => l.linkId = id)[skip.toNat + (!foundPrevLink).toNat]? := by
  induction links generalizing skip foundPrevLink with
  | nil => simp [getNextLinkFrom]
  | cons l rest ih =>
      by_cases same : l.linkId = id
      · cases foundPrevLink <;> cases skip <;> simp [getNextLinkFrom, same, ih]
      · simp [getNextLinkFrom, same, ih]

theorem spfGetNextLink_eq (v w : SPFVertex) (prevLink : Option GlobalRoutingLinkRecord) :
    spfGetNextLink v w prevLink =
      (v.lsa.linkRecords.filter fun l => l.linkId = w.vertexId)[2 * prevLink.isSome.toNat]? := by
  cases prevLink <;> simp [spfGetNextLink, getNextLinkFrom_eq]

section FirstLink

variable {v w : SPFVertex} {back : GlobalRoutingLinkRecord} {rest : List GlobalRoutingLinkRecord}

theorem spfGetNextLink_first
    (found : (w.lsa.linkRecords.filter fun l => l.linkId = v.vertexId) = back :: rest) :
    spfGetNextLink w v none = some back := by
  rw [spfGetNextLink_eq]
  exact congrArg (·[0]?) found

theorem setNextHops_once
    (found : (w.lsa.linkRecords.filter fun l => l.linkId = v.vertexId) = [back]) {exit : NodeExit}
    (first : v.getRootExitDirection = some exit) :
    setNextHops v (w.lsa.linkRecords.length + 1) none w =
      some (w.setRootExitDirection (back.linkData, exit.2)) := by
  have last : spfGetNextLink (w.setRootExitDirection (back.linkData, exit.2)) v (some back) =
      none := by
    rw [spfGetNextLink_eq]
    change ((w.lsa.linkRecords.filter fun l => l.linkId = v.vertexId)[2]?) = none
    rw [found]
    rfl
  cases records : w.lsa.linkRecords with
  | nil => simp [records] at found
  | cons l rest => simp [setNextHops, spfGetNextLink_first found, first, last]

end FirstLink

/-- What the routers of one network advertise together: a point-to-point record has its counterpart
at the neighbour, a transit record names its network, and the addresses on networks are distinct. -/
structure Consistent (lsdb : GlobalRouteManagerLSDB) : Prop where
  kinds : ∀ lsa ∈ lsdb.database, lsa.lsType = .routerLSA ∨
    (lsa.lsType = .networkLSA ∧ lsa.linkRecords = [])
  types : ∀ lsa ∈ lsdb.database, ∀ l ∈ lsa.linkRecords,
    l.linkType = .pointToPoint ∨ l.linkType = .transitNetwork ∨ l.linkType = .stubNetwork
  pointToPoint : ∀ lsa ∈ lsdb.database, ∀ l ∈ lsa.linkRecords, l.linkType = .pointToPoint →
    ∃ other ∈ lsdb.database, other.linkStateId = l.linkId ∧ other.lsType = .routerLSA ∧
      ∃ back ∈ other.linkRecords, back.linkType = .pointToPoint ∧ back.linkId = lsa.linkStateId
  transit : ∀ lsa ∈ lsdb.database, ∀ l ∈ lsa.linkRecords, l.linkType = .transitNetwork →
    ∃ other ∈ lsdb.database, other.linkStateId = l.linkId ∧ other.lsType = .networkLSA
  attached : ∀ lsa ∈ lsdb.database, ∀ router ∈ lsa.attachedRouters,
    ∀ other ∈ lsdb.database, ∀ l ∈ other.linkRecords,
      l.linkType = .transitNetwork → l.linkData = router → l.linkId = lsa.linkStateId

/-- A router has one record that names a network. -/
def AttachedOnce (lsdb : GlobalRouteManagerLSDB) : Prop :=
  ∀ lsa ∈ lsdb.database, ∀ net ∈ lsdb.database, net.lsType = .networkLSA →
    (lsa.linkRecords.filter fun l => l.linkId = net.linkStateId).length ≤ 1

instance (lsdb : GlobalRouteManagerLSDB) : Decidable (AttachedOnce lsdb) :=
  inferInstanceAs (Decidable (∀ lsa ∈ lsdb.database, ∀ net ∈ lsdb.database, _ → _))

/-- Router LSAs and network LSAs, whose records name LSAs of the database. -/
structure Closed (lsdb : GlobalRouteManagerLSDB) : Prop where
  kinds : ∀ lsa ∈ lsdb.database, lsa.lsType = .routerLSA ∨
    (lsa.lsType = .networkLSA ∧ lsa.linkRecords = [])
  types : ∀ lsa ∈ lsdb.database, ∀ l ∈ lsa.linkRecords,
    l.linkType = .pointToPoint ∨ l.linkType = .transitNetwork ∨ l.linkType = .stubNetwork
  named : ∀ lsa ∈ lsdb.database, ∀ l ∈ lsa.linkRecords, l.linkType ≠ .stubNetwork →
    ∃ other ∈ lsdb.database, other.linkStateId = l.linkId

def HasTransitAddress (lsa : GlobalRoutingLSA) (addr : Ipv4Address) : Prop :=
  ∃ l ∈ lsa.linkRecords, l.linkType = .transitNetwork ∧ l.linkData = addr

instance (lsa : GlobalRoutingLSA) (addr : Ipv4Address) : Decidable (HasTransitAddress lsa addr) :=
  inferInstanceAs (Decidable (∃ l ∈ lsa.linkRecords, _))

/-- An address that a network lists is that of one router. -/
def AddressesUnique (lsdb : GlobalRouteManagerLSDB) : Prop :=
  ∀ net ∈ lsdb.database, net.lsType = .networkLSA → ∀ router ∈ net.attachedRouters,
    ∀ one ∈ lsdb.database, ∀ two ∈ lsdb.database,
      HasTransitAddress one router → HasTransitAddress two router → one = two

instance (lsdb : GlobalRouteManagerLSDB) : Decidable (AddressesUnique lsdb) :=
  inferInstanceAs (Decidable (∀ net ∈ lsdb.database, _ → _))

/-- A record of a router or an attached router of a network, with the LSA that it leads to. -/
structure Arc where
  record : Option GlobalRoutingLinkRecord
  target : GlobalRoutingLSA
  deriving DecidableEq

def Arc.cost (arc : Arc) : UInt32 := arc.record.elim 0 fun l => l.metric.toUInt32

namespace GlobalRouteManagerLSDB

/-- A record of a router leads to the LSA that it names; a network leads to the routers that have one
of its addresses. -/
def Leaves (lsdb : GlobalRouteManagerLSDB) (lsa : GlobalRoutingLSA) (arc : Arc) : Prop :=
  lsa ∈ lsdb.database ∧ arc.target ∈ lsdb.database ∧
    ((lsa.lsType = .routerLSA ∧ ∃ l ∈ lsa.linkRecords, arc.record = some l ∧
        (l.linkType = .pointToPoint ∨ l.linkType = .transitNetwork) ∧
          l.linkId = arc.target.linkStateId) ∨
      (lsa.lsType = .networkLSA ∧ arc.record = none ∧
        ∃ router ∈ lsa.attachedRouters, HasTransitAddress arc.target router))

instance (lsdb : GlobalRouteManagerLSDB) (lsa : GlobalRoutingLSA) (arc : Arc) :
    Decidable (lsdb.Leaves lsa arc) :=
  inferInstanceAs (Decidable (_ ∧ _ ∧ (_ ∨ _)))

def recordArc (lsdb : GlobalRouteManagerLSDB) (l : GlobalRoutingLinkRecord) : Option Arc :=
  if l.linkType = .stubNetwork then none
  else (lsdb.getLSA l.linkId).map fun target => { record := some l, target }

def attachedArc (lsdb : GlobalRouteManagerLSDB) (router : Ipv4Address) : Option Arc :=
  (lsdb.getLSAByLinkData router).map fun target => { record := none, target }

/-- The arcs in the order in which `SPFNext` follows them. -/
def arcs (lsdb : GlobalRouteManagerLSDB) (lsa : GlobalRoutingLSA) : List Arc :=
  match lsa.lsType with
  | .routerLSA => lsa.linkRecords.filterMap lsdb.recordArc
  | .networkLSA => lsa.attachedRouters.filterMap lsdb.attachedArc
  | _ => []

theorem mem_arcs {lsdb : GlobalRouteManagerLSDB} {lsa : GlobalRoutingLSA} {arc : Arc}
    (member : arc ∈ lsdb.arcs lsa) :
    arc.target ∈ lsdb.database ∧
      ((lsa.lsType = .routerLSA ∧ ∃ l ∈ lsa.linkRecords, arc.record = some l ∧
          l.linkType ≠ .stubNetwork ∧ l.linkId = arc.target.linkStateId) ∨
        (lsa.lsType = .networkLSA ∧ arc.record = none ∧
          ∃ router ∈ lsa.attachedRouters, HasTransitAddress arc.target router)) := by
  unfold arcs at member
  cases kind : lsa.lsType with
  | routerLSA =>
      simp only [kind, List.mem_filterMap] at member
      obtain ⟨l, inside, found⟩ := member
      unfold recordArc at found
      split at found
      · cases found
      · rename_i crossed
        obtain ⟨target, looked, rfl⟩ := Option.map_eq_some_iff.mp found
        obtain ⟨stored, named⟩ := getLSA_eq_some.mp looked
        exact ⟨stored, Or.inl ⟨rfl, l, inside, rfl, crossed, named.symm⟩⟩
  | networkLSA =>
      simp only [kind, List.mem_filterMap] at member
      obtain ⟨router, inside, found⟩ := member
      obtain ⟨target, looked, rfl⟩ := Option.map_eq_some_iff.mp found
      obtain ⟨stored, address⟩ := getLSAByLinkData_eq_some looked
      exact ⟨stored, Or.inr ⟨rfl, rfl, router, inside, address⟩⟩
  | unknown => simp [kind] at member
  | summaryLSA => simp [kind] at member
  | summaryLSAASBR => simp [kind] at member

theorem arcs_of_leaves {lsdb : GlobalRouteManagerLSDB} (unique : AddressesUnique lsdb)
    {lsa : GlobalRoutingLSA} {arc : Arc} (leaves : lsdb.Leaves lsa arc) : arc ∈ lsdb.arcs lsa := by
  obtain ⟨record, target⟩ := arc
  obtain ⟨stored, known, ⟨router, l, inside, rfl, kind, named⟩ |
    ⟨network, rfl, router, listed, address⟩⟩ := leaves
  · simp only [arcs, router, List.mem_filterMap]
    have crossed : l.linkType ≠ .stubNetwork := by
      rcases kind with kind | kind <;> simp [kind]
    refine ⟨l, inside, ?_⟩
    rw [recordArc, if_neg crossed, getLSA_eq_some.mpr ⟨known, named.symm⟩]
    rfl
  · simp only [arcs, network, List.mem_filterMap]
    refine ⟨router, listed, ?_⟩
    cases found : lsdb.getLSAByLinkData router with
    | none =>
        obtain ⟨l, of, transit, data⟩ := address
        have absent := List.find?_eq_none.mp found target known
        simp only [List.any_eq_true, decide_eq_true_eq] at absent
        exact absurd ⟨l, of, transit, data⟩ absent
    | some other =>
        obtain ⟨member, same⟩ := getLSAByLinkData_eq_some found
        rw [attachedArc, found,
          unique lsa stored network router listed other member target known same address]
        rfl

end GlobalRouteManagerLSDB

namespace Closed

variable {lsdb : GlobalRouteManagerLSDB} (closed : Closed lsdb)
include closed

theorem router_of_record {lsa : GlobalRoutingLSA} (member : lsa ∈ lsdb.database)
    {l : GlobalRoutingLinkRecord} (inside : l ∈ lsa.linkRecords) : lsa.lsType = .routerLSA := by
  rcases closed.kinds lsa member with router | ⟨-, empty⟩
  · exact router
  · rw [empty] at inside
    cases inside

theorem leaves_of_arcs {lsa : GlobalRoutingLSA} (member : lsa ∈ lsdb.database) {arc : Arc}
    (follows : arc ∈ lsdb.arcs lsa) : lsdb.Leaves lsa arc := by
  obtain ⟨stored, ⟨router, l, inside, record, crossed, named⟩ | network⟩ :=
    GlobalRouteManagerLSDB.mem_arcs follows
  · refine ⟨member, stored, Or.inl ⟨router, l, inside, record, ?_, named⟩⟩
    rcases closed.types lsa member l inside with kind | kind | kind
    · exact Or.inl kind
    · exact Or.inr kind
    · exact absurd kind crossed
  · exact ⟨member, stored, Or.inr network⟩

theorem router_of_attached {lsa : GlobalRoutingLSA} (network : lsa.lsType = .networkLSA) {arc : Arc}
    (leaves : lsdb.Leaves lsa arc) : arc.target.lsType = .routerLSA := by
  obtain ⟨-, stored, ⟨router, -⟩ | ⟨-, -, -, -, l, inside, -⟩⟩ := leaves
  · rw [network] at router
    cases router
  · exact closed.router_of_record stored inside

end Closed

namespace Consistent

variable {lsdb : GlobalRouteManagerLSDB} (consistent : Consistent lsdb)
include consistent

theorem closed : Closed lsdb := by
  refine ⟨consistent.kinds, consistent.types, fun lsa member l inside crossed => ?_⟩
  rcases consistent.types lsa member l inside with kind | kind | kind
  · obtain ⟨other, known, named, -⟩ := consistent.pointToPoint lsa member l inside kind
    exact ⟨other, known, named⟩
  · obtain ⟨other, known, named, -⟩ := consistent.transit lsa member l inside kind
    exact ⟨other, known, named⟩
  · exact absurd kind crossed

theorem attachment {lsa : GlobalRoutingLSA} (network : lsa.lsType = .networkLSA) {arc : Arc}
    (leaves : lsdb.Leaves lsa arc) :
    0 < (arc.target.linkRecords.filter fun l => l.linkId = lsa.linkStateId).length := by
  obtain ⟨member, stored, ⟨router, -⟩ | ⟨-, -, router, attached, l, inside, transit, named⟩⟩ := leaves
  · rw [network] at router
    cases router
  · have of := consistent.attached lsa member router attached arc.target stored l inside transit named
    exact List.length_pos_of_mem (List.mem_filter.mpr ⟨inside, decide_eq_true of⟩)

theorem counterpart {lsa : GlobalRoutingLSA} {arc : Arc} (leaves : lsdb.Leaves lsa arc)
    (router : lsa.lsType = .routerLSA) (other : arc.target.lsType = .routerLSA) :
    ∃ back ∈ arc.target.linkRecords, back.linkId = lsa.linkStateId := by
  obtain ⟨member, stored, ⟨-, l, inside, -, kind, named⟩ | ⟨network, -⟩⟩ := leaves
  · rcases kind with kind | kind
    · obtain ⟨neighbour, known, id, -, back, of, -, returns⟩ :=
        consistent.pointToPoint lsa member l inside kind
      rw [lsdb.eq_of_linkStateId known stored (id.trans named)] at of
      exact ⟨back, of, returns⟩
    · obtain ⟨neighbour, known, id, network⟩ := consistent.transit lsa member l inside kind
      rw [lsdb.eq_of_linkStateId known stored (id.trans named), other] at network
      cases network
  · rw [router] at network
    cases network

end Consistent

namespace GlobalRouteManager

variable (manager : GlobalRouteManager)

/-- The database as a graph: a record costs its metric, and to leave a network costs nothing. -/
def network : WeightedGraph GlobalRoutingLSA Arc where
  leaves := manager.lsdb.Leaves
  target := Arc.target
  weight arc := arc.cost.toNat

instance (lsa : GlobalRoutingLSA) (arc : Arc) : Decidable (manager.network.leaves lsa arc) :=
  inferInstanceAs (Decidable (manager.lsdb.Leaves lsa arc))

/-- What the calculation for one root needs of the database: the routers that the root names have a
record that names the root, and those on a network with it one that names the network. -/
structure Calculable : Prop extends Closed manager.lsdb where
  back : ∀ start arc, start.linkStateId = manager.spfroot → manager.network.leaves start arc →
    arc.target.lsType = .routerLSA → ∃ l ∈ arc.target.linkRecords, l.linkId = manager.spfroot
  attached : ∀ start arc onward, start.linkStateId = manager.spfroot →
    manager.network.leaves start arc → arc.target.lsType = .networkLSA →
    manager.network.leaves arc.target onward →
      (onward.target.linkRecords.filter fun l => l.linkId = arc.target.linkStateId).length = 1

/-- The interface by which an arc of the root leaves it: that of the own address of a point-to-point
link, and that of the prefix of a network. -/
def interfaceOf (arc : Arc) : ℤ :=
  if arc.target.lsType = .networkLSA then
    manager.findOutgoingInterfaceId arc.target.linkStateId arc.target.networkLSANetworkMask
  else arc.record.elim (-1) fun l => manager.findOutgoingInterfaceId l.linkData Ipv4Mask.getOnes

/-- The address at which the target of an arc is met, `0.0.0.0` for a network. -/
def nextHopOf (v : SPFVertex) (arc : Arc) : Ipv4Address :=
  if arc.target.lsType = .networkLSA then 0
  else (arc.target.linkRecords.find? fun l => l.linkId = v.vertexId).elim 0 (·.linkData)

/-- What `SPFNexthopCalculation` makes of the exits of a vertex for one of its arcs. -/
def exitsThrough (v : SPFVertex) (arc : Arc) : List NodeExit :=
  if v.vertexId = manager.spfroot then [(nextHopOf v arc, manager.interfaceOf arc)]
  else if v.vertexType = .networkLSA then
    v.getRootExitDirection.toList.map fun exit =>
      if v.getParent = some manager.spfroot then (nextHopOf v arc, exit.2) else exit
  else v.ecmpRootExits

/-- The target of an arc as it is reached by it. -/
def reachedThrough (v : SPFVertex) (arc : Arc) : SPFVertex where
  lsa := arc.target
  distanceFromRoot := v.distanceFromRoot + arc.cost
  ecmpRootExits := manager.exitsThrough v arc
  parents := [v.vertexId]

variable {manager}

theorem calculable (consistent : Consistent manager.lsdb) (once : AttachedOnce manager.lsdb)
    (routers : ∀ lsa ∈ manager.lsdb.database, lsa.linkStateId = manager.spfroot →
      lsa.lsType = .routerLSA) : manager.Calculable := by
  refine ⟨consistent.closed, fun start arc root leaves other => ?_,
    fun start arc onward _ leaves network behind => ?_⟩
  · rw [← root]
    exact consistent.counterpart leaves (routers start leaves.1 root) other
  · have some := consistent.attachment network behind
    have few := once onward.target behind.2.1 arc.target leaves.2.1 network
    exact Nat.le_antisymm few some

theorem spfNexthopCalculation_root (calculable : manager.Calculable) {v w : SPFVertex}
    {arc : Arc} (leaves : manager.network.leaves v.lsa arc)
    (root : v.vertexId = manager.spfroot) (router : v.vertexType = .routerLSA)
    (same : w.lsa = arc.target) (distance : UInt32) :
    manager.spfNexthopCalculation v w arc.record distance =
      some { lsa := arc.target, distanceFromRoot := distance, parents := [v.vertexId]
             ecmpRootExits := manager.exitsThrough v arc } := by
  have type : w.vertexType = arc.target.lsType := congrArg _ same
  have router : v.lsa.lsType = .routerLSA := router
  have ⟨_, stored, way⟩ := leaves
  obtain ⟨-, l, inside, record, -⟩ | ⟨network, -⟩ := way
  · rcases calculable.kinds arc.target stored with other | ⟨other, -⟩
    · obtain ⟨l, of, returns⟩ := calculable.back v.lsa arc root leaves other
      obtain ⟨back, rest, found⟩ := List.exists_cons_of_ne_nil (List.ne_nil_of_mem
        (List.mem_filter.mpr ⟨of, decide_eq_true (returns.trans root.symm)⟩) :
          (arc.target.linkRecords.filter fun l => l.linkId = v.vertexId) ≠ [])
      have first : (arc.target.linkRecords.find? fun l => l.linkId = manager.spfroot) =
          some back := by
        rw [← root, ← List.head?_filter]
        exact congrArg List.head? found
      have next : spfGetNextLink w v none = some back := by
        rw [← same] at found
        exact spfGetNextLink_first found
      simp [spfNexthopCalculation, root, type, other, record, next, exitsThrough, nextHopOf,
        interfaceOf, first, same, SPFVertex.setRootExitDirection, SPFVertex.setDistanceFromRoot,
        SPFVertex.setParent]
    · simp [spfNexthopCalculation, root, type, other, exitsThrough, nextHopOf, interfaceOf, same,
        SPFVertex.setRootExitDirection, SPFVertex.setDistanceFromRoot, SPFVertex.setParent]
  · rw [router] at network
    cases network

/-- The routers behind a network that the root is attached to: the one record that leads back to the
network gives the hop. -/
theorem spfNexthopCalculation_attached {v w : SPFVertex} {arc : Arc}
    (root : v.vertexId ≠ manager.spfroot) (network : v.vertexType = .networkLSA)
    (parent : v.getParent = some manager.spfroot) (exits : v.ecmpRootExits ≠ [])
    (other : arc.target.lsType = .routerLSA)
    (once : (arc.target.linkRecords.filter fun l => l.linkId = v.vertexId).length = 1)
    (same : w.lsa = arc.target) (distance : UInt32) :
    manager.spfNexthopCalculation v w arc.record distance =
      some { lsa := arc.target, distanceFromRoot := distance, parents := [v.vertexId]
             ecmpRootExits := manager.exitsThrough v arc } := by
  have type : w.vertexType = arc.target.lsType := congrArg _ same
  obtain ⟨exit, more, kept⟩ := List.exists_cons_of_ne_nil exits
  have first : v.getRootExitDirection = some exit := congrArg List.head? kept
  obtain ⟨back, found⟩ := List.length_eq_one_iff.mp once
  have hop : (arc.target.linkRecords.find? fun l => l.linkId = v.vertexId) = some back := by
    rw [← List.head?_filter]
    exact congrArg List.head? found
  have hops : setNextHops v (arc.target.linkRecords.length + 1) none w =
      some (w.setRootExitDirection (back.linkData, exit.2)) := by
    rw [← same] at found ⊢
    exact setNextHops_once found first
  simp [spfNexthopCalculation, root, network, parent, type, other, hops, first, exitsThrough,
    nextHopOf, hop, same, SPFVertex.setRootExitDirection, SPFVertex.setDistanceFromRoot,
    SPFVertex.setParent]

theorem spfNexthopCalculation_eq (calculable : manager.Calculable) {v w : SPFVertex}
    {arc : Arc} (leaves : manager.network.leaves v.lsa arc)
    (start : v.vertexId = manager.spfroot → v.vertexType = .routerLSA)
    (exits : v.vertexId ≠ manager.spfroot → v.ecmpRootExits ≠ [])
    (once : v.vertexType = .networkLSA → v.getParent = some manager.spfroot →
      (arc.target.linkRecords.filter fun l => l.linkId = v.vertexId).length = 1)
    (same : w.lsa = arc.target) (distance : UInt32) :
    manager.spfNexthopCalculation v w arc.record distance =
      some { lsa := arc.target, distanceFromRoot := distance, parents := [v.vertexId]
             ecmpRootExits := manager.exitsThrough v arc } := by
  by_cases root : v.vertexId = manager.spfroot
  · exact spfNexthopCalculation_root calculable leaves root (start root) same distance
  · by_cases network : v.vertexType = .networkLSA
    · by_cases parent : v.getParent = some manager.spfroot
      · exact spfNexthopCalculation_attached root network parent (exits root)
          (calculable.router_of_attached network leaves) (once network parent) same distance
      · obtain ⟨exit, more, kept⟩ := List.exists_cons_of_ne_nil (exits root)
        have first : v.getRootExitDirection = some exit := congrArg List.head? kept
        simp [spfNexthopCalculation, root, network, parent, first, exitsThrough, same,
          SPFVertex.setRootExitDirection, SPFVertex.setDistanceFromRoot, SPFVertex.setParent]
    · simp [spfNexthopCalculation, root, network, exitsThrough, same,
        SPFVertex.inheritAllRootExitDirections, SPFVertex.setDistanceFromRoot, SPFVertex.setParent]

theorem exitsThrough_ne_nil {v : SPFVertex}
    (exits : v.vertexId ≠ manager.spfroot → v.ecmpRootExits ≠ []) (arc : Arc) :
    manager.exitsThrough v arc ≠ [] := by
  unfold exitsThrough
  split
  · simp
  · rename_i other
    obtain ⟨exit, more, kept⟩ := List.exists_cons_of_ne_nil (exits other)
    split
    · simp [SPFVertex.getRootExitDirection, kept]
    · simp [kept]

theorem distanceThrough_eq {lsdb : GlobalRouteManagerLSDB} {v : SPFVertex} {arc : Arc}
    (leaves : arc ∈ lsdb.arcs v.lsa) :
    v.distanceThrough arc.record = some (v.distanceFromRoot + arc.cost) := by
  obtain ⟨-, ⟨router, l, -, record, -⟩ | ⟨network, record, -⟩⟩ :=
    GlobalRouteManagerLSDB.mem_arcs leaves
  · simp [SPFVertex.distanceThrough, router, record, Arc.cost]
  · simp [SPFVertex.distanceThrough, network, record, Arc.cost]

theorem foldlM_filterMap_of {State Item Other : Type} {step : State → Item → Option State}
    {next : State → Other → Option State} {shown : Item → Option Other} {items : List Item}
    (agree : ∀ item ∈ items, ∀ state,
      step state item = (shown item).elim (some state) (next state)) (state : State) :
    items.foldlM step state = (items.filterMap shown).foldlM next state := by
  induction items generalizing state with
  | nil => rfl
  | cons item rest ih =>
      have later := fun after => ih (fun item member => agree item (by simp [member])) after
      rw [List.foldlM_cons, agree item (by simp)]
      cases found : shown item with
      | none => simp [found, later]
      | some other => simp [found, later]

theorem spfNext_eq (closed : Closed manager.lsdb) {v : SPFVertex}
    (stored : v.lsa ∈ manager.lsdb.database) (state : SPFState) :
    manager.spfNext v state = (manager.lsdb.arcs v.lsa).foldlM
      (fun state arc => manager.considerNeighbour v state arc.record arc.target) state := by
  rcases closed.kinds v.lsa stored with router | ⟨network, -⟩
  · have type : v.vertexType = .routerLSA := router
    simp only [spfNext, type, GlobalRouteManagerLSDB.arcs, router]
    refine foldlM_filterMap_of (fun l inside state => ?_) state
    have looked : l.linkType ≠ .stubNetwork → ∃ other, manager.lsdb.getLSA l.linkId = some other := by
      intro crossed
      obtain ⟨other, member, named⟩ := closed.named v.lsa stored l inside crossed
      exact ⟨other, GlobalRouteManagerLSDB.getLSA_eq_some.mpr ⟨member, named⟩⟩
    rcases closed.types v.lsa stored l inside with kind | kind | kind
    · obtain ⟨other, found⟩ := looked (by simp [kind])
      simp [examineLink, kind, GlobalRouteManagerLSDB.recordArc, found]
    · obtain ⟨other, found⟩ := looked (by simp [kind])
      simp [examineLink, kind, GlobalRouteManagerLSDB.recordArc, found]
    · simp [examineLink, kind, GlobalRouteManagerLSDB.recordArc]
  · have type : v.vertexType = .networkLSA := network
    simp only [spfNext, type, GlobalRouteManagerLSDB.arcs, network]
    refine foldlM_filterMap_of (fun router inside state => ?_) state
    cases found : manager.lsdb.getLSAByLinkData router with
    | none => simp [examineRouter, GlobalRouteManagerLSDB.attachedArc, found]
    | some other => simp [examineRouter, GlobalRouteManagerLSDB.attachedArc, found]

end GlobalRouteManager

end FISim.Routing
