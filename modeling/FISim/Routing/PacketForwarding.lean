import FISim.Lib.Forwarding
import FISim.Routing.EqualCostPaths
import FISim.Routing.GlobalRouting
import FISim.Routing.StubNode

/-!
Routers on point-to-point links that all calculate their routes from one database, and a
packet that goes from one to the next by the routes that each of them looks up.
-/

namespace FISim.Routing

open ShortestPaths Transition

section Tables

variable {routing : Ipv4GlobalRouting} {route : Ipv4RoutingTableEntry}

theorem mem_addRoutes_hostRoutes {v : SPFVertex} {dest : Ipv4Address} :
    route ∈ (GlobalRouteManager.addRoutes v (fun routing => routing.addHostRouteTo dest)
        routing).hostRoutes ↔
      route ∈ routing.hostRoutes ∨ ∃ exit ∈ v.ecmpRootExits, 0 ≤ exit.2 ∧
        route = ⟨dest, Ipv4Mask.getOnes, exit.1, UInt32.ofInt exit.2⟩ := by
  unfold GlobalRouteManager.addRoutes
  generalize v.ecmpRootExits = exits
  induction exits generalizing routing with
  | nil => simp
  | cons exit exits ih =>
      rw [List.foldl_cons, ih]
      split
      · rename_i known
        simp [Ipv4GlobalRouting.addHostRouteTo, known, or_assoc]
      · rename_i unknown
        simp [unknown]

theorem addRoutes_transit_hostRoutes {v : SPFVertex} {network : Ipv4Address} {mask : Ipv4Mask} :
    (GlobalRouteManager.addRoutes v (fun routing => routing.addNetworkRouteTo network mask)
      routing).hostRoutes = routing.hostRoutes := by
  unfold GlobalRouteManager.addRoutes
  generalize v.ecmpRootExits = exits
  induction exits generalizing routing with
  | nil => rfl
  | cons exit exits ih =>
      rw [List.foldl_cons, ih]
      split <;> rfl

/-- A host route to an address of the router, by one of its exits. -/
def IsRouteTo (v : SPFVertex) (route : Ipv4RoutingTableEntry) : Prop :=
  ∃ lr ∈ v.lsa.linkRecords, lr.linkType = .pointToPoint ∧ ∃ exit ∈ v.ecmpRootExits, 0 ≤ exit.2 ∧
    route = ⟨lr.linkData, Ipv4Mask.getOnes, exit.1, UInt32.ofInt exit.2⟩

theorem mem_spfIntraAddRouter {v : SPFVertex} :
    route ∈ (GlobalRouteManager.spfIntraAddRouter routing v).hostRoutes ↔
      route ∈ routing.hostRoutes ∨ IsRouteTo v route := by
  unfold GlobalRouteManager.spfIntraAddRouter IsRouteTo
  generalize v.lsa.linkRecords = records
  induction records generalizing routing with
  | nil => simp
  | cons lr records ih =>
      rw [List.foldl_cons, ih]
      split
      · rename_i other
        simp [other]
      · rename_i kind
        rw [not_not] at kind
        rw [mem_addRoutes_hostRoutes]
        simp [kind, or_assoc]

theorem mem_foldl_hostRoutes {tree : List SPFVertex} :
    route ∈ (tree.foldl GlobalRouteManager.spfIntraAdd routing).hostRoutes ↔
      route ∈ routing.hostRoutes ∨
        ∃ v ∈ tree, v.vertexType = .routerLSA ∧ IsRouteTo v route := by
  induction tree generalizing routing with
  | nil => simp
  | cons v tree ih =>
      rw [List.foldl_cons, ih]
      by_cases router : v.vertexType = .routerLSA
      · rw [GlobalRouteManager.spfIntraAdd, if_pos router, mem_spfIntraAddRouter]
        simp [router, or_assoc]
      · rw [GlobalRouteManager.spfIntraAdd, if_neg router, GlobalRouteManager.spfIntraAddTransit,
          addRoutes_transit_hostRoutes]
        simp [router]

end Tables

/-- The routers that take part, each known by its LSA, and what their nodes know: the interface of a
prefix and the methods of `Ipv4`. -/
structure Area where
  lsdb : GlobalRouteManagerLSDB
  nodes : ℕ
  outgoing : Ipv4Address → Ipv4Address → Ipv4Mask → ℤ
  pointer : Ipv4Address → Ipv4Address → ℕ
  ipv4 : Ipv4Address → Ipv4
  stubRoutes : Ipv4Address → List Ipv4RoutingTableEntry
  externalRoutes : Ipv4Address → List Ipv4RoutingTableEntry

namespace Area

variable (area : Area)

def manager (router : Ipv4Address) : GlobalRouteManager where
  lsdb := area.lsdb
  spfroot := router
  outgoing := area.outgoing router
  pointer := area.pointer router

/-- The links are the same whoever calculates. -/
def links : WeightedGraph GlobalRoutingLSA Arc := (area.manager 0).network

def routing (router : GlobalRoutingLSA) : Option Ipv4GlobalRouting :=
  (area.manager router.linkStateId).initializeRoutes area.nodes area.lsdb.database.length
    (area.stubRoutes router.linkStateId) (area.externalRoutes router.linkStateId)

def allRoutes (dest : Ipv4Address) (router : GlobalRoutingLSA) :
    Option (List Ipv4RoutingTableEntry) :=
  (area.routing router).map fun routing =>
    routing.allRoutes (area.ipv4 router.linkStateId) dest none

def hasAddress (router : GlobalRoutingLSA) (dest : Ipv4Address) : Prop :=
  ∃ l ∈ router.linkRecords, l.linkType = .pointToPoint ∧ l.linkData = dest

instance (router : GlobalRoutingLSA) (dest : Ipv4Address) : Decidable (hasAddress router dest) :=
  inferInstanceAs (Decidable (∃ l ∈ router.linkRecords, _ ∧ _))

/-- The device of the link of a record. -/
def device (router : GlobalRoutingLSA) (l : GlobalRoutingLinkRecord) : NetDevice :=
  (area.ipv4 router.linkStateId).getNetDevice
    (UInt32.ofInt (area.outgoing router.linkStateId l.linkData Ipv4Mask.getOnes))

def link (router : GlobalRoutingLSA) (device : NetDevice) : Option Arc := do
  let l ← router.linkRecords.find? fun l =>
    l.linkType = .pointToPoint ∧ area.device router l = device
  let target ← area.lsdb.getLSA l.linkId
  return { record := some l, target }

/-- The link that a packet crosses which is not for the router itself. -/
def forward (dest : Ipv4Address) (router : GlobalRoutingLSA) (selectIndex : ℕ) : Option Arc :=
  if hasAddress router dest then none
  else do
    let routing ← area.routing router
    let rtentry ← routing.lookupGlobal (area.ipv4 router.linkStateId) dest none selectIndex
    area.link router rtentry.outputDevice

/-- A shortest path leaves by the interface. -/
def Leads (here goal : GlobalRoutingLSA) (interface : UInt32) : Prop :=
  ∃ arc rest, area.links.Shortest here (arc :: rest) goal ∧
    area.link here ((area.ipv4 here.linkStateId).getNetDevice interface) = some arc

/-- All links are point-to-point links with a device each, and no address is used twice. -/
structure Configured : Prop where
  consistent : Consistent area.lsdb
  routers : ∀ lsa ∈ area.lsdb.database, lsa.lsType = .routerLSA ∧
    ∀ l ∈ lsa.linkRecords, l.linkType = .pointToPoint ∨ l.linkType = .stubNetwork
  positive : GlobalRouteManager.MetricsPositive area.lsdb
  ids : GlobalRouteManager.RouterIdsDistinct area.lsdb
  bounded : ∀ lsa ∈ area.lsdb.database, (area.manager lsa.linkStateId).Bounded GlobalRouteManager.byRank lsa
  interfaces : ∀ lsa ∈ area.lsdb.database, ∀ l ∈ lsa.linkRecords, l.linkType = .pointToPoint →
    0 ≤ area.outgoing lsa.linkStateId l.linkData Ipv4Mask.getOnes
  apart : ∀ lsa ∈ area.lsdb.database, ∀ l ∈ lsa.linkRecords, ∀ other ∈ lsa.linkRecords,
    l.linkType = .pointToPoint → other.linkType = .pointToPoint →
      area.device lsa l = area.device lsa other → l = other
  addresses : ∀ lsa ∈ area.lsdb.database, ∀ other ∈ area.lsdb.database, ∀ dest,
    hasAddress lsa dest → hasAddress other dest → lsa = other

namespace Configured

variable {area} (configured : area.Configured) {here goal : GlobalRoutingLSA}
  {path rest : List Arc}
include configured

theorem unique : AddressesUnique area.lsdb := by
  intro net stored network
  rw [(configured.routers net stored).1] at network
  cases network

theorem calculable (router : Ipv4Address) : (area.manager router).Calculable := by
  refine GlobalRouteManager.calculable configured.consistent ?_ fun lsa stored _ =>
    (configured.routers lsa stored).1
  intro lsa _ net stored network
  rw [(configured.routers net stored).1] at network
  cases network

theorem record_of_arc {arc : Arc} (leaves : area.links.leaves here arc) :
    ∃ l ∈ here.linkRecords, arc.record = some l ∧ l.linkType = .pointToPoint ∧
      area.lsdb.getLSA l.linkId = some arc.target := by
  have ⟨stored, known, way⟩ := leaves
  obtain ⟨-, l, inside, record, crossed, named⟩ | ⟨network, -⟩ := way
  · refine ⟨l, inside, record, ?_, GlobalRouteManagerLSDB.getLSA_eq_some.mpr ⟨known, named.symm⟩⟩
    rcases (configured.routers here stored).2 l inside with kind | kind
    · exact kind
    · rw [kind] at crossed
      rcases crossed with other | other <;> cases other
  · rw [(configured.routers here stored).1] at network
    cases network

theorem interfaceOf_arc {arc : Arc} (leaves : area.links.leaves here arc)
    {l : GlobalRoutingLinkRecord} (record : arc.record = some l) :
    (area.manager here.linkStateId).interfaceOf arc =
      area.outgoing here.linkStateId l.linkData Ipv4Mask.getOnes := by
  have router := (configured.routers arc.target leaves.2.1).1
  simp [GlobalRouteManager.interfaceOf, router, record, GlobalRouteManager.findOutgoingInterfaceId,
    manager]

theorem link_device {arc : Arc} (leaves : area.links.leaves here arc) {l : GlobalRoutingLinkRecord}
    (record : arc.record = some l) : area.link here (area.device here l) = some arc := by
  obtain ⟨same, inside, of, kind, named⟩ := configured.record_of_arc leaves
  obtain rfl := Option.some.inj (of.symm.trans record)
  unfold link
  cases found : here.linkRecords.find? fun other =>
      decide (other.linkType = .pointToPoint ∧ area.device here other = area.device here same) with
  | none =>
      have absent := List.find?_eq_none.mp found same inside
      simp [kind] at absent
  | some other =>
      have holds := List.find?_some found
      simp only [decide_eq_true_eq] at holds
      obtain rfl := configured.apart here leaves.1 other (List.mem_of_find?_eq_some found) same inside
        holds.1 kind holds.2
      simp only [Option.bind_eq_bind, Option.bind_some, named]
      rw [← record]
      rfl

theorem leads_of_arc {arc : Arc} (shortest : area.links.Shortest here (arc :: rest) goal)
    {interface : ℤ} (first : interface = (area.manager here.linkStateId).interfaceOf arc) :
    0 ≤ interface ∧ area.Leads here goal (UInt32.ofInt interface) := by
  obtain ⟨leaves, -⟩ := shortest.of_cons
  obtain ⟨l, inside, record, kind, -⟩ := configured.record_of_arc leaves
  have same := first.trans (configured.interfaceOf_arc leaves record)
  refine ⟨?_, arc, rest, shortest, ?_⟩
  · rw [same]
    exact configured.interfaces here leaves.1 l inside kind
  · rw [same]
    exact configured.link_device leaves record

theorem exits_lead (reached : area.links.Path here path goal) (other : goal ≠ here)
    (stored : here ∈ area.lsdb.database) :
    ∃ tree, (area.manager here.linkStateId).spfTree area.lsdb.database.length = some tree ∧
      (∀ vertex ∈ tree, vertex.lsa ∈ area.lsdb.database) ∧
      (∃ vertex ∈ tree, vertex.lsa = goal ∧ vertex.ecmpRootExits ≠ []) ∧
      ∀ vertex ∈ tree, vertex.lsa = goal → ∀ exit ∈ vertex.ecmpRootExits,
        0 ≤ exit.2 ∧ area.Leads here goal (UInt32.ofInt exit.2) := by
  have climbs := @GlobalRouteManager.climbs (area.manager here.linkStateId)
    configured.consistent.closed configured.positive
  have root : (area.manager here.linkStateId).lsdb.getLSA here.linkStateId = some here :=
    GlobalRouteManagerLSDB.getLSA_eq_some.mpr ⟨stored, rfl⟩
  obtain ⟨tree, final, examined, ran, search, -, complete, exits⟩ :=
    GlobalRouteManager.spfTree_rule (configured.calculable here.linkStateId)
      (GlobalRouteManager.exits_kept configured.consistent.closed configured.unique
        (configured.bounded here stored) climbs root) (Nat.le_refl _) root
      (configured.routers here stored).1 (GlobalRouteManager.exits_initial climbs)
  have known : ∀ vertex ∈ tree, vertex.lsa ∈ area.lsdb.database := fun vertex member =>
    (search.vertices vertex (by simp [member])).stored
  refine ⟨tree, ran, known, ?_, ?_⟩
  · obtain ⟨vertex, member, rfl⟩ := exits.toMeasured.popped configured.unique complete reached
    rcases List.mem_cons.mp member with rfl | member
    · exact absurd rfl other
    · refine ⟨vertex, member, rfl, (search.vertices vertex (by simp [member])).exits ?_⟩
      exact fun same => other (area.lsdb.eq_of_linkStateId (known vertex member) stored same)
  · rintro vertex member rfl exit kept
    obtain ⟨way, crossed, cost, interface⟩ := exits.sound vertex (by simp [member]) exit kept
    obtain ⟨least, shortest, same, -⟩ := exits.settled vertex (List.mem_cons_of_mem _ member)
    cases way with
    | nil => cases interface
    | cons arc rest =>
        have first : area.links.Shortest here (arc :: rest) vertex.lsa :=
          ⟨crossed, fun elsewhere arrives =>
            (cost.trans same.symm).trans_le (shortest.2 elsewhere arrives)⟩
        exact configured.leads_of_arc first (Option.some.inj interface).symm

theorem hosts_lead {tree : List SPFVertex} {routing : Ipv4GlobalRouting} {dest : Ipv4Address}
    (known : ∀ vertex ∈ tree, vertex.lsa ∈ area.lsdb.database)
    (popped : ∃ vertex ∈ tree, vertex.lsa = goal ∧ vertex.ecmpRootExits ≠ [])
    (lead : ∀ vertex ∈ tree, vertex.lsa = goal → ∀ exit ∈ vertex.ecmpRootExits,
      0 ≤ exit.2 ∧ area.Leads here goal (UInt32.ofInt exit.2))
    (filled : routing.hostRoutes = (tree.foldl GlobalRouteManager.spfIntraAdd {}).hostRoutes)
    (address : hasAddress goal dest) (ipv4 : Ipv4) :
    routing.allRoutes ipv4 dest none ≠ [] ∧
      ∀ route ∈ routing.allRoutes ipv4 dest none, area.Leads here goal route.interface := by
  have member : ∀ route, route ∈ routing.hostRoutes ↔
      ∃ v ∈ tree, v.vertexType = .routerLSA ∧ IsRouteTo v route := by
    intro route
    rw [filled, mem_foldl_hostRoutes]
    exact or_iff_right List.not_mem_nil
  let hosts := routing.hostRoutes.filter fun i => i.dest = dest && (none : Option NetDevice).all
    fun device => device = ipv4.getNetDevice i.interface
  have some : hosts ≠ [] := by
    obtain ⟨vertex, inside, rfl, nonempty⟩ := popped
    obtain ⟨exit, kept⟩ := List.exists_mem_of_ne_nil _ nonempty
    obtain ⟨l, of, kind, rfl⟩ := address
    have route := (member _).mpr ⟨vertex, inside, (configured.routers _ (known vertex inside)).1,
      l, of, kind, exit, kept, (lead vertex inside rfl exit kept).1, rfl⟩
    exact List.ne_nil_of_mem (List.mem_filter.mpr ⟨route, by simp⟩)
  have all : routing.allRoutes ipv4 dest none = hosts := if_pos some
  rw [all]
  refine ⟨some, fun route selected => ?_⟩
  obtain ⟨inside, holds⟩ := List.mem_filter.mp selected
  obtain ⟨v, settled, -, l, of, kind, exit, kept, -, rfl⟩ := (member route).mp inside
  have same : l.linkData = dest := by simpa using holds
  obtain ⟨vertex, popped, isGoal, -⟩ := popped
  have owner := configured.addresses v.lsa (known v settled) goal (isGoal ▸ known vertex popped) dest
    ⟨l, of, kind, same⟩ address
  exact (lead v settled owner exit kept).2

theorem checkForStubNode_cases {arc : Arc} (leaves : area.links.leaves here arc)
    {tree : List SPFVertex}
    (ran : (area.manager here.linkStateId).spfTree area.lsdb.database.length = some tree) :
    (area.manager here.linkStateId).checkForStubNode = some (false, none) ∨
      ∃ exit, (area.manager here.linkStateId).checkForStubNode = some (true, some exit) ∧
        ∀ vertex ∈ tree, vertex.ecmpRootExits = [exit] := by
  have root : (area.manager here.linkStateId).lsdb.getLSA here.linkStateId = some here :=
    GlobalRouteManagerLSDB.getLSA_eq_some.mpr ⟨leaves.1, rfl⟩
  obtain ⟨l, inside, -, kind, -⟩ := configured.record_of_arc leaves
  have types := (configured.routers here leaves.1).2
  have crossed : l ∈ here.linkRecords.filter fun l => l.linkType ≠ .stubNetwork :=
    List.mem_filter.mpr ⟨inside, by simp [kind]⟩
  have transits : (here.linkRecords.filter fun l =>
      l.linkType = .transitNetwork ∨ l.linkType = .pointToPoint) =
        here.linkRecords.filter fun l => l.linkType ≠ .stubNetwork := by
    refine List.filter_congr fun l within => ?_
    rcases types l within with type | type <;> simp [type]
  cases links : here.linkRecords.filter fun l => l.linkType ≠ .stubNetwork with
  | nil =>
      rw [links] at crossed
      cases crossed
  | cons link others =>
      cases others with
      | nil =>
          rw [links, List.mem_singleton] at crossed
          obtain ⟨exit, other, stub, -, same, left⟩ :=
            GlobalRouteManager.checkForStubNode_agrees configured.consistent root links
              (crossed ▸ kind) configured.ids (Nat.le_refl _)
          obtain rfl := Option.some.inj (ran.symm.trans same)
          exact Or.inr ⟨exit, stub, left⟩
      | cons second more =>
          refine Or.inl ?_
          rw [links] at transits
          rw [GlobalRouteManager.checkForStubNode, show (area.manager here.linkStateId).lsdb.getLSA
            (area.manager here.linkStateId).spfroot = some here from root, Option.bind_eq_bind,
            Option.bind_some, transits]
          rfl

theorem routes_lead (reached : area.links.Path here path goal) (other : goal ≠ here)
    {dest : Ipv4Address} (address : hasAddress goal dest) :
    ∃ routes, area.allRoutes dest here = some routes ∧ routes ≠ [] ∧
      ∀ route ∈ routes, area.Leads here goal route.interface := by
  obtain ⟨arc, leaves⟩ : ∃ arc, area.links.leaves here arc := by
    cases path with
    | nil => exact absurd reached.of_nil other
    | cons arc rest => exact ⟨arc, reached.of_cons.1⟩
  obtain ⟨tree, ran, known, popped, lead⟩ := configured.exits_lead reached other leaves.1
  have whole : ∀ routing, area.routing here = some routing →
      routing.hostRoutes = (tree.foldl GlobalRouteManager.spfIntraAdd {}).hostRoutes →
        ∃ routes, area.allRoutes dest here = some routes ∧ routes ≠ [] ∧
          ∀ route ∈ routes, area.Leads here goal route.interface := by
    intro routing filled hosts
    exact ⟨_, by rw [Area.allRoutes, filled]; rfl,
      configured.hosts_lead known popped lead hosts address _⟩
  rcases configured.checkForStubNode_cases leaves ran with checked | ⟨exit, checked, single⟩
  · obtain ⟨routing, filled, hosts⟩ :=
      GlobalRouteManager.initializeRoutes_tree checked (by simp) ran
    exact whole routing filled hosts
  · by_cases nonempty : 0 < area.nodes
    · have filled : area.routing here = some (({} : Ipv4GlobalRouting).addNetworkRouteTo 0
          Ipv4Mask.getZero exit.1 (UInt32.ofInt exit.2)) :=
        GlobalRouteManager.initializeRoutes_stub checked nonempty
      obtain ⟨vertex, member, isGoal, -⟩ := popped
      refine ⟨[⟨0, Ipv4Mask.getZero, exit.1, UInt32.ofInt exit.2⟩], ?_, by simp, ?_⟩
      · rw [Area.allRoutes, filled]
        simp [Ipv4GlobalRouting.allRoutes, Ipv4GlobalRouting.addNetworkRouteTo, Ipv4Mask.isMatch,
          Ipv4Mask.getZero]
      · rintro route inside
        rw [List.mem_singleton.mp inside]
        exact (lead vertex member isGoal exit (by rw [single vertex member]; simp)).2
    · obtain ⟨routing, filled, hosts⟩ :=
        GlobalRouteManager.initializeRoutes_tree checked (fun both => nonempty both.1) ran
      exact whole routing filled hosts

theorem owner_eq (reached : area.links.Path here path goal) {dest : Ipv4Address}
    (mine : hasAddress here dest) (address : hasAddress goal dest) : here = goal := by
  cases reached with
  | start => rfl
  | @step path vertex arc earlier leaves =>
      have stored : here ∈ area.lsdb.database := by
        cases path with
        | nil => exact earlier.of_nil ▸ leaves.1
        | cons first rest => exact earlier.of_cons.1.1
      exact configured.addresses here stored _ leaves.2.1 dest mine address

/-- A hop is made by one of the routes, so that it goes by the first arc of a shortest path. -/
theorem approaches {dest : Ipv4Address} (address : hasAddress goal dest) :
    area.links.Approaches goal (area.forward dest) := by
  intro here path selectIndex next shortest hop
  unfold Area.forward at hop
  split at hop
  · cases hop
  · rename_i absent
    have other : goal ≠ here := by
      rintro rfl
      exact absent address
    obtain ⟨routes, known, -, lead⟩ := configured.routes_lead shortest.1 other address
    obtain ⟨routing, filled, rfl⟩ := Option.map_eq_some_iff.mp known
    rw [filled, Option.bind_eq_bind, Option.bind_some] at hop
    obtain ⟨rtentry, looked, onward⟩ := Option.bind_eq_some_iff.mp hop
    obtain ⟨route, selected, rfl⟩ := Option.map_eq_some_iff.mp looked
    obtain ⟨arc, rest, way, crosses⟩ := lead route (List.mem_of_getElem? selected)
    obtain rfl := Option.some.inj (crosses.symm.trans onward)
    exact ⟨rest, way⟩

theorem positive_weight (reached : area.links.Path here path goal) :
    ∀ arc ∈ path, 1 ≤ area.links.weight arc := by
  intro arc crossed
  obtain ⟨before, leaves⟩ := reached.leaves_of_mem crossed
  obtain ⟨l, inside, record, kind, -⟩ := configured.record_of_arc leaves
  have positive := configured.positive before leaves.1 l inside (by simp [kind])
  change 1 ≤ arc.cost.toNat
  simpa [Arc.cost, record] using UInt16.le_iff_toNat_le.mp positive

end Configured

/-- Wherever a packet to an address of a connected router has got, whichever routes were drawn, the
arcs that it crossed begin a shortest path and are few, and short of the goal every route that may be
drawn sends it on. -/
theorem packets_arrive {area : Area} (configured : area.Configured) {start here goal : GlobalRoutingLSA}
    {path : List Arc} (connected : area.links.Path start path goal) {dest : Ipv4Address}
    (address : hasAddress goal dest) {selected : List ℕ} {walk : List Arc}
    (ran : run (area.links.cross (area.forward dest)) (start, []) selected = some (here, walk)) :
    (walk.length = selected.length ∧ area.links.Path start walk here ∧
      ∃ rest, area.links.Shortest here rest goal ∧ area.links.Shortest start (walk ++ rest) goal) ∧
    selected.length ≤ area.links.cost path ∧
    (here = goal ↔ hasAddress here dest) ∧
    (here ≠ goal → ∃ routes, area.allRoutes dest here = some routes ∧ routes ≠ [] ∧
      ∀ selectIndex < routes.length, (area.forward dest here selectIndex).isSome) := by
  obtain ⟨least, shortest⟩ := connected.exists_shortest
  obtain ⟨length, crossed, rest, remains, whole⟩ :=
    (configured.approaches address).run shortest ran
  refine ⟨⟨length, crossed, rest, remains, whole⟩, ?_, ⟨?_, ?_⟩, ?_⟩
  · have steps := WeightedGraph.length_le_cost (configured.positive_weight crossed)
    have bound := whole.2 path connected
    rw [WeightedGraph.cost_join] at bound
    omega
  · rintro rfl
    exact address
  · exact fun mine => configured.owner_eq remains.1 mine address
  · intro short
    obtain ⟨routes, known, nonempty, lead⟩ :=
      configured.routes_lead remains.1 (Ne.symm short) address
    refine ⟨routes, known, nonempty, fun selectIndex bound => ?_⟩
    have absent : ¬ hasAddress here dest := fun mine =>
      short (configured.owner_eq remains.1 mine address)
    obtain ⟨routing, filled, rfl⟩ := Option.map_eq_some_iff.mp known
    obtain ⟨_, _, _, target⟩ := lead _ (List.getElem_mem bound)
    have selects : routing.selectRoute (area.ipv4 here.linkStateId) dest none selectIndex =
        some _ := List.getElem?_eq_getElem bound
    rw [Area.forward, if_neg absent, filled, Option.bind_eq_bind, Option.bind_some,
      Ipv4GlobalRouting.lookupGlobal, selects, Option.map_some, Option.bind_eq_bind,
      Option.bind_some, target]
    rfl

/-- Three routers, of which the first and the third are linked at the same cost as by the second. -/
def triangle : Area where
  lsdb := {
    database := [
      { lsType := .routerLSA, linkStateId := 1
        linkRecords := [⟨.pointToPoint, 2, 0x0a010101, 1⟩, ⟨.stubNetwork, 0x0a010102, 0xffffffff, 1⟩,
          ⟨.pointToPoint, 3, 0x0a010301, 2⟩] },
      { lsType := .routerLSA, linkStateId := 2
        linkRecords := [⟨.pointToPoint, 1, 0x0a010102, 1⟩, ⟨.pointToPoint, 3, 0x0a010201, 1⟩] },
      { lsType := .routerLSA, linkStateId := 3
        linkRecords := [⟨.pointToPoint, 2, 0x0a010202, 1⟩, ⟨.pointToPoint, 1, 0x0a010302, 2⟩] }]
    sorted := by decide }
  nodes := 3
  outgoing := fun _ a _ => if a = 0x0a010101 ∨ a = 0x0a010102 ∨ a = 0x0a010202 then 1 else 2
  pointer := fun _ id => id.toNat
  ipv4 := fun _ => ⟨UInt32.toNat, fun _ => 0, fun _ _ => ⟨0⟩, fun _ _ => 0⟩
  stubRoutes := fun _ => []
  externalRoutes := fun _ => []

theorem triangle_configured : triangle.Configured where
  consistent := ⟨by decide, by decide, by decide, by decide, by simp [triangle]⟩
  routers := by decide
  positive := by decide
  ids := by decide
  bounded := fun _ _ => GlobalRouteManager.bounded_of_length
    (show triangle.lsdb.database.length ≤ 65536 by decide) _
  interfaces := by decide
  apart := by decide
  addresses := by
    have owners : ∀ lsa ∈ triangle.lsdb.database, ∀ other ∈ triangle.lsdb.database,
        ∀ l ∈ lsa.linkRecords, hasAddress other l.linkData → l.linkType = .pointToPoint →
          lsa = other := by decide
    rintro lsa stored other member dest ⟨l, inside, kind, rfl⟩ address
    exact owners lsa stored other member l inside address kind

def directWay : List Arc :=
  [⟨some ⟨.pointToPoint, 3, 0x0a010301, 2⟩, triangle.lsdb.database[2]⟩]

theorem triangle_connected :
    triangle.links.Path triangle.lsdb.database[0] directWay triangle.lsdb.database[2] :=
  WeightedGraph.Path.start.step ⟨by decide, by decide⟩

def secondRouterWay : List Arc :=
  [⟨some ⟨.pointToPoint, 2, 0x0a010101, 1⟩, triangle.lsdb.database[1]⟩,
    ⟨some ⟨.pointToPoint, 3, 0x0a010201, 1⟩, triangle.lsdb.database[2]⟩]

/-- The first of the two routes is drawn, and then the only one. -/
theorem packets_arrive_triangle :
    (secondRouterWay.length = 2 ∧
      triangle.links.Path triangle.lsdb.database[0] secondRouterWay triangle.lsdb.database[2] ∧
      ∃ rest, triangle.links.Shortest triangle.lsdb.database[2] rest triangle.lsdb.database[2] ∧
        triangle.links.Shortest triangle.lsdb.database[0] (secondRouterWay ++ rest)
          triangle.lsdb.database[2]) ∧
    2 ≤ triangle.links.cost directWay ∧
    (triangle.lsdb.database[2] = triangle.lsdb.database[2] ↔
      hasAddress triangle.lsdb.database[2] 0x0a010202) ∧
    (triangle.lsdb.database[2] ≠ triangle.lsdb.database[2] →
      ∃ routes, triangle.allRoutes 0x0a010202 triangle.lsdb.database[2] = some routes ∧ routes ≠ [] ∧
        ∀ selectIndex < routes.length,
          (triangle.forward 0x0a010202 triangle.lsdb.database[2] selectIndex).isSome) :=
  packets_arrive triangle_configured triangle_connected (by decide)
    (show run (triangle.links.cross (triangle.forward 0x0a010202)) _ [0, 0] = some _ by decide)

end Area

end FISim.Routing
