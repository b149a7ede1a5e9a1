import FISim.Routing.ShortestPathFirst
import Mathlib.Algebra.Group.Action.Defs
import Mathlib.Algebra.Order.BigOperators.Group.List

/-!
The distances of the calculation.  A vertex is popped at the least cost of a path from
the root, as long as no distance that is added up reaches 2^32.
-/

namespace FISim.Routing

open ShortestPaths

namespace GlobalRouteManager

/-- How near an LSA is at a cost, by the cost alone. -/
def byCost (cost : ℕ) (_ : GlobalRoutingLSA) : ℕ := cost

/-- No sum that the search makes reaches 2^32: that of a shortest path and an arc which leads on to an
LSA that is not nearer than the one where the path ends. -/
def Bounded {Key : Type} [LE Key] (manager : GlobalRouteManager) (key : ℕ → GlobalRoutingLSA → Key)
    (start : GlobalRoutingLSA) : Prop :=
  ∀ path lsa arc, manager.network.Shortest start path lsa → manager.network.leaves lsa arc →
    arc.target ≠ start → (∀ earlier ∈ path, earlier.target ≠ arc.target) →
    (∀ other, manager.network.Path start other arc.target →
      key (manager.network.cost path) lsa ≤ key (manager.network.cost other) arc.target) →
    manager.network.cost path + manager.network.weight arc < 2 ^ 32

/-- What was popped is at its least cost, a candidate at the cost of some path, and no arc that was
examined is a shorter way to where it leads. -/
structure Measured (manager : GlobalRouteManager) (start : GlobalRoutingLSA)
    (done : List SPFVertex) (examined : List (SPFVertex × Arc)) (candidates : List SPFVertex) :
    Prop where
  first : ∃ x ∈ done, x.lsa = start
  arcs : ∀ p ∈ examined, p.1 ∈ done ∧ manager.network.leaves p.1.lsa p.2
  settled : ∀ x ∈ done, ∃ path, manager.network.Shortest start path x.lsa ∧
    manager.network.cost path = x.distanceFromRoot.toNat ∧
      ∀ arc ∈ path, ∃ z ∈ done, z.lsa = arc.target
  reached : ∀ y ∈ candidates, ∃ path, manager.network.Path start path y.lsa ∧
    manager.network.cost path = y.distanceFromRoot.toNat ∧
      ∀ arc ∈ path, arc.target = y.lsa ∨ ∃ z ∈ done, z.lsa = arc.target
  relaxed : ∀ p ∈ examined, ∃ y ∈ done ++ candidates, y.lsa = p.2.target ∧
    y.distanceFromRoot.toNat ≤ p.1.distanceFromRoot.toNat + manager.network.weight p.2
  nearest : ∀ x ∈ done, ∀ path lsa, manager.network.Path start path lsa →
    (∀ z ∈ done, z.lsa ≠ lsa) → x.distanceFromRoot.toNat ≤ manager.network.cost path

variable {manager : GlobalRouteManager} {start : GlobalRoutingLSA}

theorem improved_le {w : SPFVertex} {old : Option SPFVertex} :
    (manager.improved w old).distanceFromRoot ≤ w.distanceFromRoot := by
  cases old with
  | none => exact UInt32.le_refl _
  | some cw =>
      by_cases less : cw.distanceFromRoot < w.distanceFromRoot
      · rw [improved_of_lt less]
        exact UInt32.le_of_lt less
      · by_cases equal : cw.distanceFromRoot = w.distanceFromRoot
        · rw [improved_of_eq equal]
          exact UInt32.le_of_eq equal
        · rw [improved_of_gt less equal]
          exact UInt32.le_refl _

theorem improved_le_old {w cw : SPFVertex} :
    (manager.improved w (some cw)).distanceFromRoot ≤ cw.distanceFromRoot := by
  by_cases less : cw.distanceFromRoot < w.distanceFromRoot
  · rw [improved_of_lt less]
    exact UInt32.le_refl _
  · by_cases equal : cw.distanceFromRoot = w.distanceFromRoot
    · rw [improved_of_eq equal]
      exact UInt32.le_refl _
    · rw [improved_of_gt less equal]
      exact UInt32.not_lt.mp less

theorem improved_distance {w : SPFVertex} {old : Option SPFVertex} :
    (manager.improved w old).distanceFromRoot = w.distanceFromRoot ∨
      ∃ cw ∈ old, manager.improved w old = cw := by
  cases old with
  | none => exact Or.inl rfl
  | some cw =>
      by_cases less : cw.distanceFromRoot < w.distanceFromRoot
      · exact Or.inr ⟨cw, rfl, improved_of_lt less⟩
      · by_cases equal : cw.distanceFromRoot = w.distanceFromRoot
        · rw [improved_of_eq equal]
          exact Or.inl equal
        · rw [improved_of_gt less equal]
          exact Or.inl rfl

section Kept

variable {done : List SPFVertex} {examined : List (SPFVertex × Arc)} {candidates : List SPFVertex}

namespace Measured

theorem sum_toNat {Key : Type} [LE Key] {key : ℕ → GlobalRoutingLSA → Key}
    (bounded : manager.Bounded key start) (measured : manager.Measured start done examined candidates)
    {x : SPFVertex} (member : x ∈ done) {arc : Arc} (leaves : manager.network.leaves x.lsa arc)
    (outside : ∀ z ∈ done, z.lsa ≠ arc.target)
    (nearer : ∀ path, manager.network.Path start path arc.target →
      key x.distanceFromRoot.toNat x.lsa ≤ key (manager.network.cost path) arc.target) :
    (manager.reachedThrough x arc).distanceFromRoot.toNat =
      x.distanceFromRoot.toNat + manager.network.weight arc := by
  obtain ⟨path, shortest, cost, inside⟩ := measured.settled x member
  obtain ⟨first, settled, root⟩ := measured.first
  have bound := bounded path x.lsa arc shortest leaves (root ▸ (outside first settled).symm)
    (fun earlier crossed same => by
      obtain ⟨z, before, target⟩ := inside earlier crossed
      exact outside z before (target.trans same))
    (cost ▸ nearer)
  rw [cost] at bound
  exact (UInt32.toNat_add _ _).trans (Nat.mod_eq_of_lt bound)

theorem least (measured : manager.Measured start done examined candidates) {x : SPFVertex}
    (member : x ∈ done) {path : List Arc} (reached : manager.network.Path start path x.lsa) :
    x.distanceFromRoot.toNat ≤ manager.network.cost path := by
  obtain ⟨other, shortest, cost, -⟩ := measured.settled x member
  rw [← cost]
  exact shortest.2 path reached

theorem arcs_append {v : SPFVertex} (measured : manager.Measured start (done ++ [v]) examined
    candidates) {arc : Arc} (leaves : manager.network.leaves v.lsa arc) :
    ∀ p ∈ examined ++ [(v, arc)], p.1 ∈ done ++ [v] ∧ manager.network.leaves p.1.lsa p.2 := by
  intro p inside
  rcases List.mem_append.mp inside with earlier | here
  · exact measured.arcs p earlier
  · obtain rfl := List.mem_singleton.mp here
    exact ⟨by simp, leaves⟩

theorem passes {v x : SPFVertex} (measured : manager.Measured start (done ++ [v]) examined
    candidates) {arc : Arc} (leaves : manager.network.leaves v.lsa arc) (member : x ∈ done ++ [v])
    (target : x.lsa = arc.target) :
    manager.Measured start (done ++ [v]) (examined ++ [(v, arc)]) candidates := by
  refine ⟨measured.first, measured.arcs_append leaves, measured.settled, measured.reached, ?_,
    measured.nearest⟩
  intro p inside
  rcases List.mem_append.mp inside with earlier | here
  · exact measured.relaxed p earlier
  · obtain rfl := List.mem_singleton.mp here
    refine ⟨x, List.mem_append_left _ member, target, ?_⟩
    obtain ⟨path, shortest, cost, -⟩ := measured.settled v (by simp)
    have reached := shortest.1.step leaves
    rw [show manager.network.target arc = x.lsa from target.symm] at reached
    have least := measured.least member reached
    rwa [WeightedGraph.cost_append, cost] at least

theorem improves {v : SPFVertex} {state after : SPFState}
    (search : manager.Search (done ++ [v]) state)
    (measured : manager.Measured start (done ++ [v]) examined state.candidates) {arc : Arc}
    (leaves : manager.network.leaves v.lsa arc)
    (sum : (manager.reachedThrough v arc).distanceFromRoot.toNat =
      v.distanceFromRoot.toNat + manager.network.weight arc)
    (considered : manager.Considered v arc state.candidates after.candidates) :
    manager.Measured start (done ++ [v]) (examined ++ [(v, arc)]) after.candidates := by
  have last : v ∈ done ++ [v] := by simp
  have lsa := search.improved_target (v := v) leaves.2.1
  have new := (considered _).mpr (Or.inl rfl)
  refine ⟨measured.first, measured.arcs_append leaves, measured.settled, fun y member => ?_,
    fun p inside => ?_, measured.nearest⟩
  · rcases (considered y).mp member with rfl | ⟨waiting, -⟩
    · rcases improved_distance with same | ⟨cw, found, same⟩
      · obtain ⟨path, shortest, cost, inside⟩ := measured.settled v last
        refine ⟨path ++ [arc], ?_, by rw [same, sum, WeightedGraph.cost_append, cost], ?_⟩
        · rw [lsa]
          exact shortest.1.step leaves
        · intro crossed within
          rcases List.mem_append.mp within with earlier | here
          · exact Or.inr (inside crossed earlier)
          · rw [List.mem_singleton.mp here, lsa]
            exact Or.inl rfl
      · rw [same]
        exact measured.reached cw (List.mem_of_find?_eq_some found)
    · exact measured.reached y waiting
  · rcases List.mem_append.mp inside with earlier | here
    · obtain ⟨y, member, target, less⟩ := measured.relaxed p earlier
      rcases List.mem_append.mp member with settled | waiting
      · exact ⟨y, List.mem_append_left _ settled, target, less⟩
      · by_cases here : y.vertexId = arc.target.linkStateId
        · refine ⟨_, List.mem_append_right _ new, ?_, le_trans ?_ less⟩
          · rw [lsa, ← target]
            exact (search.lsa_eq (List.mem_append_right _ waiting) leaves.2.1 here).symm
          · rw [← here, (CandidateQueue.find_eq_some search.candidates_distinct).mpr waiting]
            exact improved_le_old
        · exact ⟨y, List.mem_append_right _ ((considered y).mpr (Or.inr ⟨waiting, here⟩)), target,
            less⟩
    · obtain rfl := List.mem_singleton.mp here
      refine ⟨_, List.mem_append_right _ new, lsa, ?_⟩
      rw [← sum]
      exact improved_le

section Pops

variable (unique : AddressesUnique manager.lsdb) {state : SPFState} {next : SPFVertex}
  {rest : List SPFVertex} (search : manager.Search done state)
  (complete : ∀ x ∈ done, ∀ arc ∈ manager.lsdb.arcs x.lsa, (x, arc) ∈ examined)
  (queue : state.candidates = next :: rest)
  (measured : manager.Measured start done examined (next :: rest))
include unique search complete queue measured

omit search queue in
theorem frontier {path : List Arc} {near : SPFVertex} (settled : near ∈ done)
    (reached : manager.network.Path start path near.lsa) {arc : Arc}
    (leaves : manager.network.leaves near.lsa arc) (outside : ¬ ∃ x ∈ done, x.lsa = arc.target) :
    ∃ y ∈ next :: rest, y.lsa = arc.target ∧
      y.distanceFromRoot.toNat ≤ manager.network.cost (path ++ [arc]) := by
  have follows := GlobalRouteManagerLSDB.arcs_of_leaves unique leaves
  obtain ⟨y, member, target, less⟩ := measured.relaxed _ (complete near settled arc follows)
  have least := measured.least settled reached
  rw [WeightedGraph.cost_append]
  rcases List.mem_append.mp member with before | waiting
  · exact absurd ⟨y, before, target⟩ outside
  · exact ⟨y, waiting, target, less.trans (Nat.add_le_add_right least _)⟩

/-- So that no path out of the popped vertices is shorter than the way to the first candidate. -/
theorem first_least {path : List Arc} {lsa : GlobalRoutingLSA}
    (reached : manager.network.Path start path lsa) (outside : ∀ x ∈ done, x.lsa ≠ lsa) :
    next.distanceFromRoot.toNat ≤ manager.network.cost path := by
  obtain ⟨first, member, root⟩ := measured.first
  refine WeightedGraph.Path.bound (fun path _ => manager.network.cost path) (fun _ => by simp)
    (fun lsa => ∃ x ∈ done, x.lsa = lsa) ⟨first, member, root⟩ ?_ reached
    fun ⟨x, settled, same⟩ => outside x settled same
  rintro path _ arc reached ⟨near, settled, rfl⟩ leaves outside
  obtain ⟨y, waiting, -, less⟩ := measured.frontier unique complete settled reached leaves outside
  exact (search.first_le queue waiting).trans less

theorem pops : manager.Measured start (done ++ [next]) examined rest := by
  obtain ⟨first, member, root⟩ := measured.first
  have waits : ∀ x ∈ done, x.lsa ≠ next.lsa := fun x settled same =>
    search.not_done settled (queue ▸ List.mem_cons_self) (congrArg GlobalRoutingLSA.linkStateId same)
  refine ⟨⟨first, List.mem_append_left _ member, root⟩, fun p inside => ?_, fun x inside => ?_,
    fun y waiting => ?_, fun p inside => ?_, fun x inside path lsa reached outside => ?_⟩
  · obtain ⟨settled, leaves⟩ := measured.arcs p inside
    exact ⟨List.mem_append_left _ settled, leaves⟩
  · rcases List.mem_append.mp inside with settled | here
    · obtain ⟨path, shortest, cost, within⟩ := measured.settled x settled
      refine ⟨path, shortest, cost, fun arc crossed => ?_⟩
      obtain ⟨z, before, target⟩ := within arc crossed
      exact ⟨z, List.mem_append_left _ before, target⟩
    · obtain rfl := List.mem_singleton.mp here
      obtain ⟨path, reached, cost, within⟩ := measured.reached x (by simp)
      refine ⟨path, ⟨reached, fun other elsewhere => ?_⟩, cost, fun arc crossed => ?_⟩
      · rw [cost]
        exact measured.first_least unique search complete queue elsewhere waits
      · rcases within arc crossed with target | ⟨z, before, target⟩
        · exact ⟨x, by simp, target.symm⟩
        · exact ⟨z, List.mem_append_left _ before, target⟩
  · obtain ⟨path, reached, cost, within⟩ := measured.reached y (List.mem_cons_of_mem _ waiting)
    refine ⟨path, reached, cost, fun arc crossed => ?_⟩
    rcases within arc crossed with target | ⟨z, before, target⟩
    · exact Or.inl target
    · exact Or.inr ⟨z, List.mem_append_left _ before, target⟩
  · obtain ⟨y, member, found⟩ := measured.relaxed p inside
    exact ⟨y, by simpa using member, found⟩
  · have before : ∀ z ∈ done, z.lsa ≠ lsa := fun z settled =>
      outside z (List.mem_append_left _ settled)
    rcases List.mem_append.mp inside with settled | here
    · exact measured.nearest x settled path lsa reached before
    · rw [List.mem_singleton.mp here]
      exact measured.first_least unique search complete queue reached before

end Pops

end Measured

end Kept

theorem measured_kept (calculable : manager.Calculable) (unique : AddressesUnique manager.lsdb)
    (bounded : manager.Bounded byCost start) : manager.Kept (manager.Measured start) := by
  have leave : ∀ {done v state arc}, manager.Search (done ++ [v]) state →
      arc ∈ manager.lsdb.arcs v.lsa → manager.network.leaves v.lsa arc :=
    fun search follows => calculable.leaves_of_arcs (search.known (by simp)) follows
  refine ⟨?_, ?_, ?_⟩
  · rintro done v state examined arc search follows ⟨x, member, target⟩ measured
    exact measured.passes (leave search follows) member target
  · intro done v state after examined arc search _ follows outside considered measured
    refine measured.improves search (leave search follows) ?_ considered
    exact measured.sum_toNat bounded (by simp) (leave search follows) outside
      fun path reached => measured.nearest v (by simp) path arc.target reached outside
  · intro done state examined next rest search complete queue measured
    exact measured.pops unique search complete queue

theorem measured_initial :
    manager.Measured start [{ lsa := start, distanceFromRoot := 0 }] [] [] := by
  refine ⟨⟨_, List.mem_singleton_self _, rfl⟩, by simp, ?_, by simp, by simp, ?_⟩
  · intro x member
    obtain rfl := List.mem_singleton.mp member
    exact ⟨[], ⟨.start, fun _ _ => Nat.zero_le _⟩, rfl, by simp⟩
  · intro x member path lsa _ _
    rw [List.mem_singleton.mp member]
    exact Nat.zero_le _

theorem Measured.popped (unique : AddressesUnique manager.lsdb) {done : List SPFVertex}
    {examined : List (SPFVertex × Arc)} (measured : manager.Measured start done examined [])
    (complete : ∀ x ∈ done, ∀ arc ∈ manager.lsdb.arcs x.lsa, (x, arc) ∈ examined)
    {path : List Arc} {lsa : GlobalRoutingLSA} (reached : manager.network.Path start path lsa) :
    ∃ x ∈ done, x.lsa = lsa := by
  induction reached with
  | start => exact measured.first
  | step _ leaves ih =>
      obtain ⟨x, member, rfl⟩ := ih
      have follows := GlobalRouteManagerLSDB.arcs_of_leaves unique leaves
      obtain ⟨y, inside, target, -⟩ := measured.relaxed _ (complete x member _ follows)
      rw [List.append_nil] at inside
      exact ⟨y, inside, target⟩

theorem router_of_full (closed : Closed manager.lsdb)
    (root : manager.lsdb.getLSA manager.spfroot = some start) {exit : Option NodeExit}
    (full : manager.checkForStubNode = some (false, exit)) : start.lsType = .routerLSA := by
  rcases closed.kinds start (GlobalRouteManagerLSDB.getLSA_eq_some.mp root).1 with router | ⟨-, empty⟩
  · exact router
  · simp [checkForStubNode, root, empty] at full

/-- The calculation ends, and what can be reached from the root is popped once, at its least cost. -/
theorem spfCalculate_distances (calculable : manager.Calculable)
    (unique : AddressesUnique manager.lsdb)
    (root : manager.lsdb.getLSA manager.spfroot = some start) {exit : Option NodeExit}
    (full : manager.checkForStubNode = some (false, exit)) (bounded : manager.Bounded byCost start)
    {fuel : ℕ} (enough : manager.lsdb.database.length ≤ fuel) (nodes : ℕ) :
    ∃ tree, manager.spfCalculate nodes fuel = some (none, tree) ∧
      (tree.map (·.vertexId)).Nodup ∧
      (∀ vertex ∈ tree, vertex.lsa ≠ start ∧ ∃ path,
        manager.network.Shortest start path vertex.lsa ∧
          manager.network.cost path = vertex.distanceFromRoot.toNat) ∧
      ∀ path lsa, manager.network.Path start path lsa → lsa ≠ start →
        ∃ vertex ∈ tree, vertex.lsa = lsa := by
  have router := router_of_full calculable.toClosed root full
  obtain ⟨tree, final, examined, ran, search, finished, complete, measured⟩ :=
    spfTree_rule calculable (measured_kept calculable unique bounded) enough root router
      measured_initial
  have distinct := search.distinct
  rw [finished, List.append_nil] at distinct
  obtain ⟨absent, distinct⟩ := List.nodup_cons.mp distinct
  refine ⟨tree, by simp [spfCalculate, full, ran], distinct, ?_, ?_⟩
  · intro vertex member
    obtain ⟨path, shortest, cost, -⟩ := measured.settled vertex (List.mem_cons_of_mem _ member)
    refine ⟨fun same => ?_, path, shortest, cost⟩
    exact absent (List.mem_map.mpr ⟨vertex, member, congrArg GlobalRoutingLSA.linkStateId same⟩)
  · intro path lsa reached other
    obtain ⟨x, member, rfl⟩ := measured.popped unique complete reached
    rcases List.mem_cons.mp member with rfl | member
    · exact absurd rfl other
    · exact ⟨x, member, rfl⟩

theorem weight_le (arc : Arc) : manager.network.weight arc ≤ 65535 := by
  change arc.cost.toNat ≤ 65535
  unfold Arc.cost
  cases arc.record with
  | none => decide
  | some l =>
      rw [Option.elim_some, UInt16.toNat_toUInt32]
      have small := l.metric.toNat_lt
      omega

theorem bounded_of_length (few : manager.lsdb.database.length ≤ 65536) {Key : Type} [LE Key]
    (key : ℕ → GlobalRoutingLSA → Key) : manager.Bounded key start := by
  intro path lsa arc shortest leaves _ _ _
  obtain ⟨simple, way, -, distinct⟩ := shortest.1.exists_nodup
  have inside : ∀ other ∈ simple.map manager.network.target, other ∈ manager.lsdb.database := by
    intro other member
    obtain ⟨crossed, within, rfl⟩ := List.mem_map.mp member
    obtain ⟨before, leaves⟩ := way.leaves_of_mem within
    exact leaves.2.1
  have length := (List.subperm_of_subset (List.nodup_cons.mp distinct).2 inside).length_le
  rw [List.length_map] at length
  have least := shortest.2 simple way
  have cost : manager.network.cost simple ≤ simple.length * 65535 := by
    have sum := List.sum_le_card_nsmul (simple.map manager.network.weight) 65535 (by
      intro weight member
      obtain ⟨crossed, -, rfl⟩ := List.mem_map.mp member
      exact weight_le crossed)
    rwa [List.length_map, smul_eq_mul] at sum
  have last := manager.weight_le arc
  omega

/-- A root with a neighbour on a network and one on a link, and a router behind both of them. -/
def square : GlobalRouteManager where
  lsdb := {
    database := [
      { lsType := .routerLSA, linkStateId := 1
        linkRecords := [⟨.transitNetwork, 0x0a010101, 0x0a010101, 1⟩,
          ⟨.pointToPoint, 3, 0x0a010201, 1⟩, ⟨.stubNetwork, 0x0a010202, 0xffffffff, 1⟩] },
      { lsType := .routerLSA, linkStateId := 2
        linkRecords := [⟨.transitNetwork, 0x0a010101, 0x0a010102, 1⟩,
          ⟨.pointToPoint, 4, 0x0a010301, 1⟩] },
      { lsType := .routerLSA, linkStateId := 3
        linkRecords := [⟨.pointToPoint, 1, 0x0a010202, 1⟩, ⟨.pointToPoint, 4, 0x0a010401, 1⟩] },
      { lsType := .routerLSA, linkStateId := 4
        linkRecords := [⟨.pointToPoint, 2, 0x0a010302, 1⟩, ⟨.pointToPoint, 3, 0x0a010402, 1⟩] },
      { lsType := .networkLSA, linkStateId := 0x0a010101, networkLSANetworkMask := 0xffffff00
        attachedRouters := [0x0a010101, 0x0a010102] }]
    sorted := by decide }
  spfroot := 1
  outgoing := fun a _ => if a = 0x0a010101 then 1 else if a = 0x0a010201 then 2 else -1
  pointer := fun id => id.toNat

theorem square_calculable : square.Calculable :=
  calculable ⟨by decide, by decide, by decide, by decide, by simp [square]⟩ (by decide) (by decide)

theorem square_unique : AddressesUnique square.lsdb := by
  simp [AddressesUnique, HasTransitAddress, square]

theorem spfCalculate_distances_square :
    ∃ tree, square.spfCalculate 4 5 = some (none, tree) ∧ (tree.map (·.vertexId)).Nodup ∧
      (∀ vertex ∈ tree, vertex.lsa ≠ square.lsdb.database[0] ∧ ∃ path,
        square.network.Shortest square.lsdb.database[0] path vertex.lsa ∧
          square.network.cost path = vertex.distanceFromRoot.toNat) ∧
      ∀ path lsa, square.network.Path square.lsdb.database[0] path lsa →
        lsa ≠ square.lsdb.database[0] → ∃ vertex ∈ tree, vertex.lsa = lsa :=
  spfCalculate_distances square_calculable square_unique rfl
    (show square.checkForStubNode = some (false, none) from rfl) (bounded_of_length (by decide) byCost)
    (by decide) 4

/-- The records name LSAs of the database, a router has one record for a network, no cost overflows,
and the root is not short-circuited. -/
structure Named (manager : GlobalRouteManager) (start : GlobalRoutingLSA) : Prop where
  records : ∀ lsa ∈ manager.lsdb.database, ∀ l ∈ lsa.linkRecords,
    ∃ other ∈ manager.lsdb.database, other.linkStateId = l.linkId
  once : AttachedOnce manager.lsdb
  bounded : manager.Bounded byCost start
  root : manager.lsdb.getLSA manager.spfroot = some start
  full : manager.checkForStubNode = some (false, none)

-- A router names a neighbour that has no record back.
def oneSided : GlobalRouteManager where
  lsdb := {
    database := [
      { lsType := .routerLSA, linkStateId := 1
        linkRecords := [⟨.pointToPoint, 2, 0x0a010101, 1⟩] },
      { lsType := .routerLSA, linkStateId := 2 }]
    sorted := by decide }
  spfroot := 1
  outgoing := fun _ _ => 1
  pointer := fun id => id.toNat

-- A router with an address of the root's network names another network.
def stranger : GlobalRouteManager where
  lsdb := {
    database := [
      { lsType := .routerLSA, linkStateId := 1
        linkRecords := [⟨.transitNetwork, 0x0a010101, 0x0a010101, 1⟩] },
      { lsType := .routerLSA, linkStateId := 2
        linkRecords := [⟨.transitNetwork, 0x0a010201, 0x0a010102, 1⟩] },
      { lsType := .routerLSA, linkStateId := 3
        linkRecords := [⟨.transitNetwork, 0x0a010201, 0x0a010201, 1⟩] },
      { lsType := .networkLSA, linkStateId := 0x0a010101
        attachedRouters := [0x0a010101, 0x0a010102] },
      { lsType := .networkLSA, linkStateId := 0x0a010201, attachedRouters := [0x0a010201] }]
    sorted := by decide }
  spfroot := 1
  outgoing := fun _ _ => 1
  pointer := fun id => id.toNat

-- Two routers have one address on the root's network.
def twins : GlobalRouteManager where
  lsdb := {
    database := [
      { lsType := .routerLSA, linkStateId := 1
        linkRecords := [⟨.transitNetwork, 0x0a010101, 0x0a010101, 1⟩] },
      { lsType := .routerLSA, linkStateId := 2
        linkRecords := [⟨.transitNetwork, 0x0a010101, 0x0a010102, 1⟩] },
      { lsType := .routerLSA, linkStateId := 3
        linkRecords := [⟨.transitNetwork, 0x0a010101, 0x0a010102, 1⟩] },
      { lsType := .networkLSA, linkStateId := 0x0a010101
        attachedRouters := [0x0a010101, 0x0a010102] }]
    sorted := by decide }
  spfroot := 1
  outgoing := fun _ _ => 1
  pointer := fun id => id.toNat

-- The root has a record of an illegal type.
def virtual : GlobalRouteManager where
  lsdb := {
    database := [
      { lsType := .routerLSA, linkStateId := 1
        linkRecords := [⟨.virtualLink, 2, 0x0a010101, 1⟩, ⟨.transitNetwork, 3, 0x0a010201, 1⟩] },
      { lsType := .routerLSA, linkStateId := 2 },
      { lsType := .networkLSA, linkStateId := 3, attachedRouters := [0x0a010201] }]
    sorted := by decide }
  spfroot := 1
  outgoing := fun _ _ => 1
  pointer := fun id => id.toNat

/-- In three of the databases the calculation fails, and in that of the twins the second of them is not
found. -/
theorem named_fails :
    (oneSided.Named oneSided.lsdb.database[0] ∧ ∀ fuel, oneSided.spfCalculate 2 fuel = none) ∧
    (stranger.Named stranger.lsdb.database[0] ∧ ∀ fuel, stranger.spfCalculate 3 fuel = none) ∧
    (virtual.Named virtual.lsdb.database[0] ∧ ∀ fuel, virtual.spfCalculate 2 fuel = none) ∧
    twins.Named twins.lsdb.database[0] ∧
      (∃ path, twins.network.Path twins.lsdb.database[0] path twins.lsdb.database[2]) ∧
        ∃ tree, twins.spfCalculate 3 4 = some (none, tree) ∧
          ∀ vertex ∈ tree, vertex.lsa ≠ twins.lsdb.database[2] := by
  refine ⟨⟨⟨by decide, by decide, bounded_of_length (by decide) byCost, rfl, rfl⟩, ?_⟩,
    ⟨⟨by decide, by decide, bounded_of_length (by decide) byCost, rfl, rfl⟩, ?_⟩,
    ⟨⟨by decide, by decide, bounded_of_length (by decide) byCost, rfl, rfl⟩, ?_⟩,
    ⟨by decide, by decide, bounded_of_length (by decide) byCost, rfl, rfl⟩, ?_, ?_⟩
  · rintro (_ | _) <;> rfl
  · rintro (_ | _ | _ | _ | _ | _) <;> rfl
  · rintro (_ | _) <;> rfl
  · have first : twins.network.leaves twins.lsdb.database[0]
        ⟨some ⟨.transitNetwork, 0x0a010101, 0x0a010101, 1⟩, twins.lsdb.database[3]⟩ := by decide
    have second : twins.network.leaves twins.lsdb.database[3]
        ⟨none, twins.lsdb.database[2]⟩ := by decide
    exact ⟨_, (WeightedGraph.Path.start.step first).step second⟩
  · exact ⟨_, rfl, by decide⟩

end GlobalRouteManager

end FISim.Routing
