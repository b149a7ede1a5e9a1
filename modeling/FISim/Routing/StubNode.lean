import FISim.Routing.ShortestPathFirst

/-!
A root with one point-to-point record and no transit record.  Every vertex that the
calculation reaches has the exit of the default route that `CheckForStubNode` installs,
since it is handed on from the single neighbour in every branch.
-/

namespace FISim.Routing

namespace GlobalRouteManager

variable {manager : GlobalRouteManager} {exit : NodeExit}

theorem improved_exit {w : SPFVertex} {old : Option SPFVertex} (reached : w.ecmpRootExits = [exit])
    (kept : ∀ cw ∈ old, cw.ecmpRootExits = [exit]) :
    (manager.improved w old).ecmpRootExits = [exit] := by
  cases old with
  | none => exact reached
  | some cw =>
      have waiting := kept cw rfl
      by_cases less : cw.distanceFromRoot < w.distanceFromRoot
      · rwa [improved_of_lt less]
      · by_cases equal : cw.distanceFromRoot = w.distanceFromRoot
        · rw [improved_of_eq equal]
          change uniq ((cw.ecmpRootExits ++ w.ecmpRootExits).insertionSort exitLe) = [exit]
          rw [waiting, reached]
          simp [uniq]
        · rwa [improved_of_gt less equal]

/-- Beyond the root a vertex hands on its one exit, unless it is a network of the root. -/
theorem exitsThrough_inherited {v : SPFVertex} (left : v.ecmpRootExits = [exit])
    (other : v.vertexId ≠ manager.spfroot)
    (behind : v.vertexType = .networkLSA → v.getParent ≠ some manager.spfroot) (arc : Arc) :
    manager.exitsThrough v arc = [exit] := by
  unfold exitsThrough
  rw [if_neg other]
  split
  · rename_i network
    simp [SPFVertex.getRootExitDirection, left, behind network]
  · exact left

/-- Every vertex but the root is left for by the one exit. -/
def AllLeftBy (manager : GlobalRouteManager) (exit : NodeExit) (done : List SPFVertex)
    (_ : List (SPFVertex × Arc)) (candidates : List SPFVertex) : Prop :=
  ∀ x ∈ done ++ candidates, x.vertexId ≠ manager.spfroot → x.ecmpRootExits = [exit]

theorem allLeftBy_kept
    (first : ∀ v, v.vertexId = manager.spfroot → v.lsa ∈ manager.lsdb.database →
      ∀ arc ∈ manager.lsdb.arcs v.lsa,
        arc.target.lsType = .routerLSA ∧ manager.exitsThrough v arc = [exit]) :
    manager.Kept (manager.AllLeftBy exit) := by
  refine ⟨fun _ _ _ holds => holds, ?_, ?_⟩
  · intro done v state after examined arc search _ leaves _ considered holds x member other
    have settled : v ∈ (done ++ [v]) ++ state.candidates := by simp
    rcases List.mem_append.mp member with before | waiting
    · exact holds x (List.mem_append_left _ before) other
    · rcases (considered x).mp waiting with rfl | ⟨waiting, -⟩
      · refine improved_exit ?_ fun cw candidate => ?_
        · by_cases here : v.vertexId = manager.spfroot
          · exact (first v here (search.known settled) arc leaves).2
          · refine exitsThrough_inherited (holds v settled here) here (fun network parent => ?_) arc
            obtain ⟨root, before, id, of, leads, target⟩ :=
              (search.vertices v settled).parents manager.spfroot (List.mem_of_mem_head? parent)
            have router := (first root id
              (search.known (List.mem_append_left _ before)) of leads).1
            rw [target, show v.lsa.lsType = .networkLSA from network] at router
            cases router
        · obtain ⟨waiting, -⟩ := search.found (GlobalRouteManagerLSDB.mem_arcs leaves).1 candidate
          exact holds cw (List.mem_append_right _ waiting) (search.not_root waiting)
      · exact holds x (List.mem_append_right _ waiting) other
  · intro done state examined next rest _ _ _ holds x member
    exact holds x (by simpa using member)

/-- The addresses behind stub records are not ids of routers. -/
def RouterIdsDistinct (lsdb : GlobalRouteManagerLSDB) : Prop :=
  ∀ lsa ∈ lsdb.database, ∀ l ∈ lsa.linkRecords, l.linkType = .stubNetwork →
    ∀ other ∈ lsdb.database, other.lsType = .routerLSA → other.linkStateId ≠ l.linkId

instance (lsdb : GlobalRouteManagerLSDB) : Decidable (RouterIdsDistinct lsdb) :=
  inferInstanceAs (Decidable (∀ lsa ∈ lsdb.database, ∀ l ∈ lsa.linkRecords, _ → _))

section Stub

variable (consistent : Consistent manager.lsdb) {lsa : GlobalRoutingLSA}
  (root : manager.lsdb.getLSA manager.spfroot = some lsa) {link : GlobalRoutingLinkRecord}
  (only : (lsa.linkRecords.filter fun l => l.linkType ≠ .stubNetwork) = [link])
  (kind : link.linkType = .pointToPoint)
include consistent root only kind

/-- The single neighbour has a record that leads back, and the first one with the root's id is it. -/
theorem stub_neighbour (distinct : RouterIdsDistinct manager.lsdb) :
    ∃ neighbour back, manager.lsdb.getLSA link.linkId = some neighbour ∧
      neighbour.lsType = .routerLSA ∧
      (neighbour.linkRecords.find? fun l => l.linkId = lsa.linkStateId) = some back ∧
      (neighbour.linkRecords.find? fun lr =>
        lr.linkType = .pointToPoint ∧ lr.linkId = lsa.linkStateId) = some back := by
  obtain ⟨stored, id⟩ := GlobalRouteManagerLSDB.getLSA_eq_some.mp root
  have inside : link ∈ lsa.linkRecords :=
    List.mem_of_mem_filter (only ▸ List.mem_singleton_self link)
  have router := consistent.closed.router_of_record stored inside
  obtain ⟨neighbour, member, named, isRouter, back, of, backKind, returns⟩ :=
    consistent.pointToPoint lsa stored link inside kind
  have same : ∀ l ∈ neighbour.linkRecords, l.linkId = lsa.linkStateId →
      l.linkType = .pointToPoint := by
    intro l within leads
    rcases consistent.types neighbour member l within with pointToPoint | transit | stub
    · exact pointToPoint
    · obtain ⟨network, known, named, type⟩ := consistent.transit neighbour member l within transit
      rw [manager.lsdb.eq_of_linkStateId known stored (named.trans leads), router] at type
      cases type
    · exact absurd leads.symm (distinct neighbour member l within stub lsa stored router)
  obtain ⟨first, rest, found⟩ := List.exists_cons_of_ne_nil (List.ne_nil_of_mem
    (List.mem_filter.mpr ⟨of, decide_eq_true returns⟩) :
      (neighbour.linkRecords.filter fun l => l.linkId = lsa.linkStateId) ≠ [])
  refine ⟨neighbour, first, GlobalRouteManagerLSDB.getLSA_eq_some.mpr ⟨member, named⟩, isRouter,
    ?_, ?_⟩
  · rw [← List.head?_filter, found]
    rfl
  · have filters : (neighbour.linkRecords.filter fun lr =>
        lr.linkType = .pointToPoint ∧ lr.linkId = lsa.linkStateId) = first :: rest := by
      rw [← found]
      refine List.filter_congr fun l within => ?_
      by_cases leads : l.linkId = lsa.linkStateId
      · simp [leads, same l within leads]
      · simp [leads]
    rw [← List.head?_filter, filters]
    rfl

theorem stub_arc {neighbour : GlobalRoutingLSA}
    (found : manager.lsdb.getLSA link.linkId = some neighbour) {arc : Arc}
    (leaves : manager.network.leaves lsa arc) :
    arc = { record := some link, target := neighbour } := by
  obtain ⟨stored, -⟩ := GlobalRouteManagerLSDB.getLSA_eq_some.mp root
  have inside : link ∈ lsa.linkRecords :=
    List.mem_of_mem_filter (only ▸ List.mem_singleton_self link)
  have router := consistent.closed.router_of_record stored inside
  obtain ⟨-, member, ⟨-, l, within, record, crossed, named⟩ | ⟨network, -⟩⟩ := leaves
  · have one : l ∈ lsa.linkRecords.filter fun l => l.linkType ≠ .stubNetwork :=
      List.mem_filter.mpr ⟨within, by rcases crossed with kind | kind <;> simp [kind]⟩
    rw [only, List.mem_singleton] at one
    subst one
    have target := GlobalRouteManagerLSDB.getLSA_eq_some.mpr ⟨member, named.symm⟩
    rw [found, Option.some.injEq] at target
    cases arc
    simp_all
  · rw [router] at network
    cases network

theorem checkForStubNode_exit {neighbour : GlobalRoutingLSA} {back : GlobalRoutingLinkRecord}
    (found : manager.lsdb.getLSA link.linkId = some neighbour)
    (first : (neighbour.linkRecords.find? fun lr =>
      lr.linkType = .pointToPoint ∧ lr.linkId = lsa.linkStateId) = some back) :
    manager.checkForStubNode = some (true, some
      (back.linkData, manager.findOutgoingInterfaceId link.linkData Ipv4Mask.getOnes)) := by
  obtain ⟨stored, -⟩ := GlobalRouteManagerLSDB.getLSA_eq_some.mp root
  have transits : (lsa.linkRecords.filter fun l =>
      l.linkType = .transitNetwork ∨ l.linkType = .pointToPoint) = [link] := by
    rw [← only]
    refine List.filter_congr fun l within => ?_
    rcases consistent.types lsa stored l within with type | type | type <;> simp [type]
  simp only [checkForStubNode, root, Option.bind_eq_bind, Option.bind_some, transits, kind, found,
    first, reduceCtorEq, if_false]
  rfl

theorem exitsThrough_stub {neighbour : GlobalRoutingLSA} {back : GlobalRoutingLinkRecord}
    (found : manager.lsdb.getLSA link.linkId = some neighbour)
    (isRouter : neighbour.lsType = .routerLSA)
    (first : (neighbour.linkRecords.find? fun l => l.linkId = lsa.linkStateId) = some back)
    {v : SPFVertex} (here : v.vertexId = manager.spfroot) {arc : Arc}
    (leaves : manager.network.leaves v.lsa arc) :
    arc.target.lsType = .routerLSA ∧ manager.exitsThrough v arc =
      [(back.linkData, manager.findOutgoingInterfaceId link.linkData Ipv4Mask.getOnes)] := by
  obtain ⟨stored, id⟩ := GlobalRouteManagerLSDB.getLSA_eq_some.mp root
  have same : v.lsa = lsa := manager.lsdb.eq_of_linkStateId leaves.1 stored (here.trans id.symm)
  obtain rfl := stub_arc consistent root only kind found (same ▸ leaves)
  have hop : (neighbour.linkRecords.find? fun l => l.linkId = manager.spfroot) = some back := by
    rw [← id]
    exact first
  exact ⟨isRouter, by simp [exitsThrough, here, nextHopOf, interfaceOf, isRouter, hop]⟩

/-- The tree of a stub node has the exit of its default route at every vertex. -/
theorem checkForStubNode_agrees (distinct : RouterIdsDistinct manager.lsdb) {fuel : ℕ}
    (enough : manager.lsdb.database.length ≤ fuel) :
    ∃ exit tree, manager.checkForStubNode = some (true, some exit) ∧
      (∀ nodes, 0 < nodes → manager.spfCalculate nodes fuel = some (some exit, [])) ∧
      manager.spfTree fuel = some tree ∧ ∀ vertex ∈ tree, vertex.ecmpRootExits = [exit] := by
  obtain ⟨neighbour, back, found, isRouter, first, firstPointToPoint⟩ :=
    stub_neighbour consistent root only kind distinct
  obtain ⟨stored, id⟩ := GlobalRouteManagerLSDB.getLSA_eq_some.mp root
  have inside : link ∈ lsa.linkRecords :=
    List.mem_of_mem_filter (only ▸ List.mem_singleton_self link)
  have router := consistent.closed.router_of_record stored inside
  let exit : NodeExit :=
    (back.linkData, manager.findOutgoingInterfaceId link.linkData Ipv4Mask.getOnes)
  have start : ∀ v, v.vertexId = manager.spfroot → ∀ arc, manager.network.leaves v.lsa arc →
      arc.target.lsType = .routerLSA ∧ manager.exitsThrough v arc = [exit] :=
    fun v here arc leaves =>
      exitsThrough_stub consistent root only kind found isRouter first here leaves
  have calculable : manager.Calculable := by
    refine ⟨consistent.closed, fun other arc here leaves neighbour => ?_,
      fun other arc onward here leaves network => ?_⟩
    · rw [← here]
      obtain rfl := manager.lsdb.eq_of_linkStateId leaves.1 stored (here.trans id.symm)
      exact consistent.counterpart leaves router neighbour
    · have router := (start { lsa := other } here arc leaves).1
      rw [network] at router
      cases router
  have initial : manager.AllLeftBy exit [{ lsa, distanceFromRoot := 0 }] [] [] := by
    intro x member other
    obtain rfl : x = ⟨lsa, 0, [], []⟩ := by simpa using member
    exact absurd id other
  obtain ⟨tree, final, examined, ran, search, -, -, result⟩ :=
    spfTree_rule calculable (allLeftBy_kept fun v here member arc leaves =>
      start v here arc (consistent.closed.leaves_of_arcs member leaves)) enough root router initial
  have shortcut : manager.checkForStubNode = some (true, some exit) :=
    checkForStubNode_exit consistent root only kind found firstPointToPoint
  refine ⟨exit, tree, shortcut, fun nodes some => ?_, ran, fun vertex member => ?_⟩
  · simp [spfCalculate, shortcut, some]
  · have distinct := search.distinct
    simp only [List.cons_append, List.map_cons] at distinct
    refine result vertex (by simp [member]) fun here => ?_
    refine (List.nodup_cons.mp distinct).1 (List.mem_map.mpr ⟨vertex, by simp [member], ?_⟩)
    exact here.trans id.symm

end Stub

/-- A stub node behind a router that is attached to a network with one more router. -/
def stubNetwork : GlobalRouteManager where
  lsdb := {
    database := [
      { lsType := .routerLSA, linkStateId := 1
        linkRecords := [⟨.pointToPoint, 2, 0x0a010101, 5⟩, ⟨.stubNetwork, 0x0a010102, 0xffffffff, 5⟩] },
      { lsType := .routerLSA, linkStateId := 2
        linkRecords := [⟨.pointToPoint, 1, 0x0a010102, 5⟩, ⟨.stubNetwork, 0x0a010101, 0xffffffff, 5⟩,
          ⟨.transitNetwork, 0x0a010201, 0x0a010201, 3⟩] },
      { lsType := .routerLSA, linkStateId := 3
        linkRecords := [⟨.transitNetwork, 0x0a010201, 0x0a010202, 4⟩] },
      { lsType := .networkLSA, linkStateId := 0x0a010201, networkLSANetworkMask := 0xffffff00
        attachedRouters := [0x0a010201, 0x0a010202] }]
    sorted := by decide }
  spfroot := 1
  outgoing := fun a _ => if a = 0x0a010101 then 1 else -1
  pointer := fun id => id.toNat

theorem stubNetwork_consistent : Consistent stubNetwork.lsdb :=
  ⟨by decide, by decide, by decide, by decide, by simp [stubNetwork]⟩

theorem checkForStubNode_agrees_stubNetwork :
    ∃ exit tree, stubNetwork.checkForStubNode = some (true, some exit) ∧
      (∀ nodes, 0 < nodes → stubNetwork.spfCalculate nodes 4 = some (some exit, [])) ∧
      stubNetwork.spfTree 4 = some tree ∧ ∀ vertex ∈ tree, vertex.ecmpRootExits = [exit] :=
  checkForStubNode_agrees stubNetwork_consistent rfl rfl rfl (by decide) (by decide)

end GlobalRouteManager

end FISim.Routing
