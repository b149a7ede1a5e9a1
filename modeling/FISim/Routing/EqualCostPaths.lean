import FISim.Routing.Distances
import Mathlib.Data.List.Induction

/-!
The exits of the calculation against the shortest paths.  Every exit that is kept belongs
to a shortest path.  The other way round, a vertex hands on all its exits, except that a
transit network hands on its first one only, so that a first hop is kept when a path has
it that crosses no network which shortest paths reach by two interfaces.
-/

namespace FISim.Routing

open ShortestPaths

namespace GlobalRouteManager

/-- The interface by which a path leaves the root. -/
def leavesBy (manager : GlobalRouteManager) (path : List Arc) : Option ℤ :=
  path.head?.map manager.interfaceOf

/-- For each shortest path to another router there is an exit with its interface. -/
def KeepsFirstHops (manager : GlobalRouteManager) (start : GlobalRoutingLSA)
    (tree : List SPFVertex) : Prop :=
  ∀ path w, manager.network.Shortest start path w → w ≠ start → w.lsType = .routerLSA →
    ∃ vertex ∈ tree, vertex.lsa = w ∧
      ∃ exit ∈ vertex.ecmpRootExits, manager.leavesBy path = some exit.2

/-- The path crosses no network that shortest paths reach by two interfaces of the root. -/
def Clear (manager : GlobalRouteManager) (start : GlobalRoutingLSA) (path : List Arc) : Prop :=
  ∀ before arc rest, path = before ++ arc :: rest → ∀ net other, net.lsType = .networkLSA →
    manager.network.Shortest start before net → manager.network.Shortest start other net →
    manager.leavesBy before = manager.leavesBy other

/-- The first hop of a shortest path to a router is that of a clear one. -/
def ClearFirstHops (manager : GlobalRouteManager) (start : GlobalRoutingLSA) : Prop :=
  ∀ path w, manager.network.Shortest start path w → w.lsType = .routerLSA →
    ∃ other, manager.network.Shortest start other w ∧
      manager.leavesBy other = manager.leavesBy path ∧ manager.Clear start other

def MetricsPositive (lsdb : GlobalRouteManagerLSDB) : Prop :=
  ∀ lsa ∈ lsdb.database, ∀ l ∈ lsa.linkRecords, l.linkType ≠ .stubNetwork → 1 ≤ l.metric

instance (lsdb : GlobalRouteManagerLSDB) : Decidable (MetricsPositive lsdb) :=
  inferInstanceAs (Decidable (∀ lsa ∈ lsdb.database, ∀ l ∈ lsa.linkRecords, _ → _))

/-- How near an LSA is at a cost: of two at one cost a network is nearer than a router. -/
def byRank (cost : ℕ) (lsa : GlobalRoutingLSA) : ℕ ×ₗ ℕ := toLex (cost, lsa.rank)

/-- The exits next to the distances: each belongs to a shortest path, and those that an arc hands on
are kept where it leads on such a path. -/
structure Exits (manager : GlobalRouteManager) (start : GlobalRoutingLSA)
    (done : List SPFVertex) (examined : List (SPFVertex × Arc)) (candidates : List SPFVertex) :
    Prop extends manager.Measured start done examined candidates where
  order : done.Pairwise fun x y => x.key ≤ y.key
  later : ∀ x ∈ done, ∀ y ∈ candidates, x.key ≤ y.key
  ranked : ∀ x ∈ done, ∀ path lsa, manager.network.Path start path lsa →
    (∀ z ∈ done, z.lsa ≠ lsa) → x.key ≤ byRank (manager.network.cost path) lsa
  sound : ∀ y ∈ done ++ candidates, ∀ exit ∈ y.ecmpRootExits,
    ∃ path, manager.network.Path start path y.lsa ∧
      manager.network.cost path = y.distanceFromRoot.toNat ∧ manager.leavesBy path = some exit.2
  kept : ∀ p ∈ examined, ∀ y ∈ done ++ candidates, y.lsa = p.2.target →
    y.distanceFromRoot.toNat = p.1.distanceFromRoot.toNat + manager.network.weight p.2 →
    ∀ exit ∈ manager.exitsThrough p.1 p.2, ∃ other ∈ y.ecmpRootExits, other.2 = exit.2

variable {manager : GlobalRouteManager} {start : GlobalRoutingLSA}

theorem leavesBy_append {path : List Arc} {interface : ℤ} (leaves : manager.leavesBy path = some interface)
    (arc : Arc) : manager.leavesBy (path ++ [arc]) = some interface := by
  cases path with
  | nil => cases leaves
  | cons first rest => exact leaves

theorem exitsThrough_interface {v : SPFVertex} {arc : Arc} {exit : NodeExit}
    (member : exit ∈ manager.exitsThrough v arc) :
    (v.vertexId = manager.spfroot ∧ exit.2 = manager.interfaceOf arc) ∨
      (v.vertexId ≠ manager.spfroot ∧ ∃ other ∈ v.ecmpRootExits, other.2 = exit.2) := by
  unfold exitsThrough at member
  split at member
  · rename_i root
    rw [List.mem_singleton.mp member]
    exact Or.inl ⟨root, rfl⟩
  · rename_i other
    refine Or.inr ⟨other, ?_⟩
    split at member
    · obtain ⟨first, found, rfl⟩ := List.mem_map.mp member
      refine ⟨first, List.mem_of_mem_head? (Option.mem_toList.mp found), ?_⟩
      split <;> rfl
    · exact ⟨exit, member, rfl⟩

theorem climbs (closed : Closed manager.lsdb) (positive : MetricsPositive manager.lsdb) :
    manager.network.Climbs GlobalRoutingLSA.rank := by
  intro lsa arc leaves none
  have ⟨stored, _, way⟩ := leaves
  obtain ⟨router, l, inside, record, crossed, -⟩ | ⟨network, -⟩ := way
  · have some := UInt16.le_iff_toNat_le.mp (positive lsa stored l inside (by
      rcases crossed with kind | kind <;> simp [kind]))
    change arc.cost.toNat = 0 at none
    simp [Arc.cost, record] at none
    simp [none] at some
  · have router := closed.router_of_attached network leaves
    change lsa.rank < arc.target.rank
    simp [GlobalRoutingLSA.rank, network, router]

section Improved

variable {w cw : SPFVertex} {old : Option SPFVertex} {exit : NodeExit}

theorem improved_exit_cases (member : exit ∈ (manager.improved w old).ecmpRootExits) :
    ((manager.improved w old).distanceFromRoot = w.distanceFromRoot ∧ exit ∈ w.ecmpRootExits) ∨
      ∃ cw ∈ old, (manager.improved w old).distanceFromRoot = cw.distanceFromRoot ∧
        exit ∈ cw.ecmpRootExits := by
  cases old with
  | none => exact Or.inl ⟨rfl, member⟩
  | some cw =>
      by_cases less : cw.distanceFromRoot < w.distanceFromRoot
      · rw [improved_of_lt less] at member ⊢
        exact Or.inr ⟨cw, rfl, rfl, member⟩
      · by_cases equal : cw.distanceFromRoot = w.distanceFromRoot
        · rw [improved_of_eq equal] at member ⊢
          rcases SPFVertex.mem_mergeRootExitDirections.mp member with first | second
          · exact Or.inr ⟨cw, rfl, rfl, first⟩
          · exact Or.inl ⟨equal, second⟩
        · rw [improved_of_gt less equal] at member ⊢
          exact Or.inl ⟨rfl, member⟩

theorem improved_keeps_new
    (same : (manager.improved w old).distanceFromRoot = w.distanceFromRoot)
    (member : exit ∈ w.ecmpRootExits) : exit ∈ (manager.improved w old).ecmpRootExits := by
  cases old with
  | none => exact member
  | some cw =>
      by_cases less : cw.distanceFromRoot < w.distanceFromRoot
      · rw [improved_of_lt less] at same
        exact absurd less (same ▸ UInt32.lt_irrefl _)
      · by_cases equal : cw.distanceFromRoot = w.distanceFromRoot
        · rw [improved_of_eq equal]
          exact SPFVertex.mem_mergeRootExitDirections.mpr (Or.inr member)
        · rwa [improved_of_gt less equal]

theorem improved_keeps_old
    (same : (manager.improved w (some cw)).distanceFromRoot = cw.distanceFromRoot)
    (member : exit ∈ cw.ecmpRootExits) : exit ∈ (manager.improved w (some cw)).ecmpRootExits := by
  by_cases less : cw.distanceFromRoot < w.distanceFromRoot
  · rwa [improved_of_lt less]
  · by_cases equal : cw.distanceFromRoot = w.distanceFromRoot
    · rw [improved_of_eq equal]
      exact SPFVertex.mem_mergeRootExitDirections.mpr (Or.inl member)
    · rw [improved_of_gt less equal] at same
      exact absurd same.symm equal

end Improved

namespace Exits

variable {done : List SPFVertex} {examined : List (SPFVertex × Arc)} {candidates : List SPFVertex}

theorem key_le_last {v x : SPFVertex} (exits : manager.Exits start (done ++ [v]) examined candidates)
    (member : x ∈ done ++ [v]) : x.key ≤ v.key := by
  rcases List.mem_append.mp member with before | last
  · exact (List.pairwise_append.mp exits.order).2.2 x before v (by simp)
  · rw [List.mem_singleton.mp last]

theorem passes (climbs : manager.network.Climbs GlobalRoutingLSA.rank) {v x : SPFVertex}
    {state : SPFState} (search : manager.Search (done ++ [v]) state)
    (exits : manager.Exits start (done ++ [v]) examined state.candidates) {arc : Arc}
    (leaves : manager.network.leaves v.lsa arc) (member : x ∈ done ++ [v])
    (target : x.lsa = arc.target) :
    manager.Exits start (done ++ [v]) (examined ++ [(v, arc)]) state.candidates := by
  refine ⟨exits.toMeasured.passes leaves member target, exits.order, exits.later, exits.ranked,
    exits.sound, ?_⟩
  intro p inside y waiting same distance
  rcases List.mem_append.mp inside with earlier | here
  · exact exits.kept p earlier y waiting same distance
  · obtain rfl := List.mem_singleton.mp here
    have settled : y ∈ done ++ [v] := by
      rcases List.mem_append.mp waiting with settled | waiting
      · exact settled
      · exact absurd (congrArg GlobalRoutingLSA.linkStateId (target.trans same.symm))
          (search.not_done member waiting)
    have after := climbs.key_lt leaves v.distanceFromRoot.toNat
    have before : toLex (y.distanceFromRoot.toNat, y.lsa.rank) ≤ _ := exits.key_le_last settled
    rw [distance, same] at before
    exact absurd before after.not_ge

section Improves

variable {v : SPFVertex} {state after : SPFState} (search : manager.Search (done ++ [v]) state)
  (exits : manager.Exits start (done ++ [v]) examined state.candidates) {arc : Arc}
  (leaves : manager.network.leaves v.lsa arc)
include search exits leaves

omit search in
theorem sum (bounded : manager.Bounded byRank start) (outside : ∀ x ∈ done ++ [v], x.lsa ≠ arc.target) :
    (manager.reachedThrough v arc).distanceFromRoot.toNat =
      v.distanceFromRoot.toNat + manager.network.weight arc :=
  exits.sum_toNat bounded (by simp) leaves outside
    fun path reached => exits.ranked v (by simp) path arc.target reached outside

theorem improved_later (bounded : manager.Bounded byRank start)
    (outside : ∀ x ∈ done ++ [v], x.lsa ≠ arc.target)
    (climbs : manager.network.Climbs GlobalRoutingLSA.rank) {x : SPFVertex}
    (member : x ∈ done ++ [v]) :
    x.key ≤ (manager.improved (manager.reachedThrough v arc)
      (CandidateQueue.find state.candidates arc.target.linkStateId)).key := by
  rcases improved_distance with same | ⟨cw, found, same⟩
  · have further := climbs.key_lt leaves v.distanceFromRoot.toNat
    have sum := exits.sum leaves bounded outside
    refine (exits.key_le_last member).trans (further.le.trans_eq ?_)
    rw [SPFVertex.key, same, sum, search.improved_target (v := v) leaves.2.1]
    rfl
  · rw [same]
    exact exits.later x member cw (List.mem_of_find?_eq_some found)

theorem reached_sound (bounded : manager.Bounded byRank start)
    (outside : ∀ x ∈ done ++ [v], x.lsa ≠ arc.target)
    (root : manager.lsdb.getLSA manager.spfroot = some start) {exit : NodeExit}
    (member : exit ∈ manager.exitsThrough v arc) :
    ∃ path, manager.network.Path start path arc.target ∧
      manager.network.cost path = (manager.reachedThrough v arc).distanceFromRoot.toNat ∧
      manager.leavesBy path = some exit.2 := by
  have settled : v ∈ done ++ [v] := by simp
  have sum := exits.sum leaves bounded outside
  rcases exitsThrough_interface member with ⟨here, interface⟩ | ⟨-, other, kept, interface⟩
  · obtain ⟨stored, id⟩ := GlobalRouteManagerLSDB.getLSA_eq_some.mp root
    have same := search.lsa_eq (List.mem_append_left _ settled) stored (here.trans id.symm)
    have begin : manager.network.Path start [] v.lsa := same ▸ .start
    have least := exits.least settled begin
    refine ⟨[] ++ [arc], begin.step leaves, ?_, by rw [interface]; rfl⟩
    rw [sum, WeightedGraph.cost_append]
    rw [WeightedGraph.cost_nil] at least ⊢
    omega
  · obtain ⟨path, reached, cost, first⟩ :=
      exits.sound v (List.mem_append_left _ settled) other kept
    refine ⟨path ++ [arc], reached.step leaves, ?_, ?_⟩
    · rw [sum, WeightedGraph.cost_append, cost]
    · rw [← interface]
      exact leavesBy_append first arc

theorem improved_kept (outside : ∀ x ∈ done ++ [v], x.lsa ≠ arc.target) {p : SPFVertex × Arc}
    (earlier : p ∈ examined)
    (target : (manager.improved (manager.reachedThrough v arc)
      (CandidateQueue.find state.candidates arc.target.linkStateId)).lsa = p.2.target)
    (distance : (manager.improved (manager.reachedThrough v arc)
        (CandidateQueue.find state.candidates arc.target.linkStateId)).distanceFromRoot.toNat =
      p.1.distanceFromRoot.toNat + manager.network.weight p.2)
    {exit : NodeExit} (through : exit ∈ manager.exitsThrough p.1 p.2) :
    ∃ other ∈ (manager.improved (manager.reachedThrough v arc)
        (CandidateQueue.find state.candidates arc.target.linkStateId)).ecmpRootExits,
      other.2 = exit.2 := by
  rw [search.improved_target (v := v) leaves.2.1] at target
  obtain ⟨old, member, same, less⟩ := exits.relaxed p earlier
  rcases List.mem_append.mp member with settled | waiting
  · exact absurd (same.trans target.symm) (outside old settled)
  · have found : CandidateQueue.find state.candidates arc.target.linkStateId = some old := by
      rw [target, ← same]
      exact (CandidateQueue.find_eq_some search.candidates_distinct).mpr waiting
    rw [found] at distance ⊢
    have stays : (manager.improved (manager.reachedThrough v arc) (some old)).distanceFromRoot =
        old.distanceFromRoot :=
      UInt32.toNat_inj.mp (Nat.le_antisymm improved_le_old (less.trans_eq distance.symm))
    obtain ⟨other, kept, interface⟩ := exits.kept p earlier old (List.mem_append_right _ waiting) same
      (by rw [← distance, stays]) exit through
    exact ⟨other, improved_keeps_old stays kept, interface⟩

theorem improves (bounded : manager.Bounded byRank start)
    (climbs : manager.network.Climbs GlobalRoutingLSA.rank)
    (root : manager.lsdb.getLSA manager.spfroot = some start)
    (outside : ∀ x ∈ done ++ [v], x.lsa ≠ arc.target)
    (considered : manager.Considered v arc state.candidates after.candidates) :
    manager.Exits start (done ++ [v]) (examined ++ [(v, arc)]) after.candidates := by
  have sum := exits.sum leaves bounded outside
  have lsa := search.improved_target (v := v) leaves.2.1
  have stored := leaves.2.1
  refine ⟨exits.toMeasured.improves search leaves sum considered, exits.order, ?_, exits.ranked, ?_, ?_⟩
  · intro x member y waiting
    rcases (considered y).mp waiting with rfl | ⟨before, -⟩
    · exact exits.improved_later search leaves bounded outside climbs member
    · exact exits.later x member y before
  · intro y member exit kept
    rcases List.mem_append.mp member with settled | waiting
    · exact exits.sound y (List.mem_append_left _ settled) exit kept
    · rcases (considered y).mp waiting with rfl | ⟨before, -⟩
      · rw [lsa]
        rcases improved_exit_cases kept with ⟨same, new⟩ | ⟨cw, found, same, old⟩
        · rw [same]
          exact exits.reached_sound search leaves bounded outside root new
        · obtain ⟨candidate, target⟩ := search.found stored found
          rw [same, ← target]
          exact exits.sound cw (List.mem_append_right _ candidate) exit old
      · exact exits.sound y (List.mem_append_right _ before) exit kept
  · intro p inside y member target distance exit through
    rcases List.mem_append.mp inside with earlier | here
    · rcases List.mem_append.mp member with settled | waiting
      · exact exits.kept p earlier y (List.mem_append_left _ settled) target distance exit through
      · rcases (considered y).mp waiting with rfl | ⟨before, -⟩
        · exact exits.improved_kept search leaves outside earlier target distance through
        · exact exits.kept p earlier y (List.mem_append_right _ before) target distance exit through
    · obtain rfl := List.mem_singleton.mp here
      rcases List.mem_append.mp member with settled | waiting
      · exact absurd target (outside y settled)
      · rcases (considered y).mp waiting with rfl | ⟨-, other⟩
        · rw [← sum] at distance
          exact ⟨exit, improved_keeps_new (UInt32.toNat_inj.mp distance) through, rfl⟩
        · exact absurd (congrArg GlobalRoutingLSA.linkStateId target) other

end Improves

section Pops

variable (unique : AddressesUnique manager.lsdb) {state : SPFState} {next : SPFVertex}
  {rest : List SPFVertex} (search : manager.Search done state)
  (complete : ∀ x ∈ done, ∀ arc ∈ manager.lsdb.arcs x.lsa, (x, arc) ∈ examined)
  (queue : state.candidates = next :: rest)
  (exits : manager.Exits start done examined (next :: rest))
  (climbs : manager.network.Climbs GlobalRoutingLSA.rank)
include unique search complete queue exits climbs

theorem first_ranked {path : List Arc} {lsa : GlobalRoutingLSA}
    (reached : manager.network.Path start path lsa) (outside : ∀ x ∈ done, x.lsa ≠ lsa) :
    next.key ≤ byRank (manager.network.cost path) lsa := by
  obtain ⟨first, member, root⟩ := exits.first
  refine WeightedGraph.Path.bound (fun path lsa => byRank (manager.network.cost path) lsa)
    (fun leaves => ?_) (fun lsa => ∃ x ∈ done, x.lsa = lsa) ⟨first, member, root⟩ ?_ reached
    fun ⟨x, settled, same⟩ => outside x settled same
  · rw [byRank, byRank, WeightedGraph.cost_append]
    exact (climbs.key_lt leaves _).le
  · rintro path _ arc reached ⟨near, settled, rfl⟩ leaves outside
    obtain ⟨y, waiting, target, less⟩ :=
      exits.frontier unique complete settled reached leaves outside
    refine (search.first_key_le queue waiting).trans (Prod.Lex.toLex_mono ⟨less, ?_⟩)
    rw [target]
    rfl

theorem pops : manager.Exits start (done ++ [next]) examined rest := by
  have same : done ++ [next] ++ rest = done ++ next :: rest := by simp
  refine ⟨exits.toMeasured.pops unique search complete queue, ?_, ?_, ?_, ?_, ?_⟩
  · refine List.pairwise_append.mpr ⟨exits.order, List.pairwise_singleton _ _, ?_⟩
    intro x settled y here
    rw [List.mem_singleton.mp here]
    exact exits.later x settled next (by simp)
  · intro x member y waiting
    rcases List.mem_append.mp member with settled | here
    · exact exits.later x settled y (List.mem_cons_of_mem _ waiting)
    · rw [List.mem_singleton.mp here]
      exact search.first_key_le queue (List.mem_cons_of_mem _ waiting)
  · intro x member path lsa reached outside
    have before : ∀ z ∈ done, z.lsa ≠ lsa := fun z settled =>
      outside z (List.mem_append_left _ settled)
    rcases List.mem_append.mp member with settled | here
    · exact exits.ranked x settled path lsa reached before
    · rw [List.mem_singleton.mp here]
      exact exits.first_ranked unique search complete queue climbs reached before
  · rw [same]
    exact exits.sound
  · rw [same]
    exact exits.kept

end Pops

theorem hands_on (exits : manager.Exits start done examined [])
    (climbs : manager.network.Climbs GlobalRoutingLSA.rank)
    (root : manager.lsdb.getLSA manager.spfroot = some start)
    {state : SPFState} (search : manager.Search done state) {x : SPFVertex} (member : x ∈ done)
    {path : List Arc} {arc : Arc} (clear : manager.Clear start (path ++ [arc]))
    (before : manager.network.Shortest start path x.lsa)
    (earlier : path ≠ [] → ∃ exit ∈ x.ecmpRootExits, manager.leavesBy path = some exit.2) :
    ∃ exit ∈ manager.exitsThrough x arc, manager.leavesBy (path ++ [arc]) = some exit.2 := by
  obtain ⟨stored, id⟩ := GlobalRouteManagerLSDB.getLSA_eq_some.mp root
  by_cases here : x.vertexId = manager.spfroot
  · have same := search.lsa_eq (List.mem_append_left _ member) stored (here.trans id.symm)
    rw [same] at before
    rw [climbs.shortest_root before]
    exact ⟨_, by rw [exitsThrough, if_pos here]; exact List.mem_singleton_self _, rfl⟩
  · have nonempty : path ≠ [] := by
      rintro rfl
      exact here ((congrArg GlobalRoutingLSA.linkStateId before.1.of_nil).trans id)
    obtain ⟨exit, kept, leaves⟩ := earlier nonempty
    by_cases network : x.vertexType = .networkLSA
    · obtain ⟨first, rest, all⟩ := List.exists_cons_of_ne_nil (List.ne_nil_of_mem kept)
      have found : first ∈ x.ecmpRootExits := by simp [all]
      obtain ⟨other, reached, cost, interface⟩ :=
        exits.sound x (List.mem_append_left _ member) first found
      have shortest : manager.network.Shortest start other x.lsa :=
        ⟨reached, fun path elsewhere => cost ▸ exits.least member elsewhere⟩
      have same := clear path arc [] rfl x.lsa other network before shortest
      refine ⟨if x.getParent = some manager.spfroot then (nextHopOf x arc, first.2) else first,
        ?_, ?_⟩
      · simp [exitsThrough, here, network, SPFVertex.getRootExitDirection, all]
      · rw [leavesBy_append (same.trans interface) arc]
        split <;> rfl
    · refine ⟨exit, ?_, leavesBy_append leaves arc⟩
      rw [exitsThrough, if_neg here, if_neg network]
      exact kept

/-- By induction on a clear path, every vertex that it crosses was popped with an exit for it. -/
theorem first_hops (unique : AddressesUnique manager.lsdb)
    (exits : manager.Exits start done examined [])
    (complete : ∀ x ∈ done, ∀ arc ∈ manager.lsdb.arcs x.lsa, (x, arc) ∈ examined)
    (climbs : manager.network.Climbs GlobalRoutingLSA.rank)
    (root : manager.lsdb.getLSA manager.spfroot = some start)
    {state : SPFState} (search : manager.Search done state) {path : List Arc}
    (clear : manager.Clear start path) {w : GlobalRoutingLSA}
    (shortest : manager.network.Shortest start path w) :
    ∃ x ∈ done, x.lsa = w ∧
      (path ≠ [] → ∃ exit ∈ x.ecmpRootExits, manager.leavesBy path = some exit.2) := by
  induction path using List.reverseRecOn generalizing w with
  | nil =>
      obtain ⟨x, member, rfl⟩ := exits.first
      exact ⟨x, member, shortest.1.of_nil.symm, fun nonempty => absurd rfl nonempty⟩
  | append_singleton path arc ih =>
      obtain ⟨_, before, leaves, rfl⟩ := shortest.of_append
      have shorter : manager.Clear start path := fun first next rest split =>
        clear first next (rest ++ [arc]) (by rw [split, List.append_assoc, List.cons_append])
      obtain ⟨x, member, rfl, earlier⟩ := ih shorter before
      obtain ⟨exit, through, interface⟩ :=
        exits.hands_on climbs root search member clear before earlier
      have seen := complete x member arc (GlobalRouteManagerLSDB.arcs_of_leaves unique leaves)
      obtain ⟨y, inside, target, -⟩ := exits.relaxed _ seen
      rw [List.append_nil] at inside
      obtain ⟨short, first, cost, -⟩ := exits.settled x member
      obtain ⟨other, second, total, -⟩ := exits.settled y inside
      rw [target] at second
      have distance : y.distanceFromRoot.toNat =
          x.distanceFromRoot.toNat + manager.network.weight arc := by
        rw [← total, ← cost, first.cost_eq before, ← WeightedGraph.cost_append]
        exact second.cost_eq shortest
      obtain ⟨kept, known, same⟩ :=
        exits.kept _ seen y (List.mem_append_left _ inside) target distance exit through
      exact ⟨y, inside, target, fun _ => ⟨kept, known, by rw [interface, same]⟩⟩

end Exits

theorem exits_kept (closed : Closed manager.lsdb) (unique : AddressesUnique manager.lsdb)
    (bounded : manager.Bounded byRank start)
    (climbs : manager.network.Climbs GlobalRoutingLSA.rank)
    (root : manager.lsdb.getLSA manager.spfroot = some start) :
    manager.Kept (manager.Exits start) := by
  have leave : ∀ {done v state arc}, manager.Search (done ++ [v]) state →
      arc ∈ manager.lsdb.arcs v.lsa → manager.network.leaves v.lsa arc :=
    fun search follows => closed.leaves_of_arcs (search.known (by simp)) follows
  refine ⟨?_, ?_, ?_⟩
  · rintro done v state examined arc search follows ⟨x, member, target⟩ exits
    exact exits.passes climbs search (leave search follows) member target
  · intro done v state after examined arc search _ follows outside considered exits
    exact exits.improves search (leave search follows) bounded climbs root outside considered
  · intro done state examined next rest search complete queue exits
    exact exits.pops unique search complete queue climbs

theorem exits_initial (climbs : manager.network.Climbs GlobalRoutingLSA.rank) :
    manager.Exits start [{ lsa := start, distanceFromRoot := 0 }] [] [] := by
  refine ⟨measured_initial, by simp, by simp, ?_, by simp, by simp⟩
  intro x member path lsa reached other
  obtain rfl := List.mem_singleton.mp member
  refine (climbs.root_lt reached ?_).le
  rintro rfl
  exact other _ member reached.of_nil.symm

/-- No first hop of a shortest path is lost that a clear path has too. -/
theorem spfTree_keepsFirstHops (calculable : manager.Calculable)
    (unique : AddressesUnique manager.lsdb) (positive : MetricsPositive manager.lsdb)
    (root : manager.lsdb.getLSA manager.spfroot = some start) (router : start.lsType = .routerLSA)
    (bounded : manager.Bounded byRank start) (clear : manager.ClearFirstHops start) {fuel : ℕ}
    (enough : manager.lsdb.database.length ≤ fuel) :
    ∃ tree, manager.spfTree fuel = some tree ∧ manager.KeepsFirstHops start tree := by
  have climbs := climbs calculable.toClosed positive
  obtain ⟨tree, final, examined, ran, search, -, complete, exits⟩ :=
    spfTree_rule calculable (exits_kept calculable.toClosed unique bounded climbs root) enough root
      router (exits_initial climbs)
  refine ⟨tree, ran, fun path w reached other router => ?_⟩
  obtain ⟨path', shortest, same, clear⟩ := clear path w reached router
  obtain ⟨x, member, rfl, hop⟩ := exits.first_hops unique complete climbs root search clear shortest
  have nonempty : path' ≠ [] := by
    rintro rfl
    exact other shortest.1.of_nil
  rcases List.mem_cons.mp member with rfl | member
  · exact absurd rfl other
  · exact ⟨x, member, rfl, same ▸ hop nonempty⟩

/-- The interface of the direct link to the network is that of every shortest path to it. -/
theorem square_clearFirstHops : square.ClearFirstHops square.lsdb.database[0] := by
  have follows : ∀ {lsa arc}, square.network.leaves lsa arc → arc ∈ square.lsdb.arcs lsa :=
    GlobalRouteManagerLSDB.arcs_of_leaves square_unique
  have only : ∀ lsa ∈ square.lsdb.database, lsa.lsType = .networkLSA →
      lsa = square.lsdb.database[4] := by decide
  have first : ∀ arc ∈ square.lsdb.arcs square.lsdb.database[0],
      square.interfaceOf arc = 1 ∨ arc.target = square.lsdb.database[2] ∧
        square.network.weight arc = 1 := by decide
  let potential : GlobalRoutingLSA → ℕ := fun lsa => if lsa.linkStateId = 3 then 0 else 1
  have rises : ∀ lsa ∈ square.lsdb.database, ∀ arc ∈ square.lsdb.arcs lsa,
      potential arc.target ≤ potential lsa + square.network.weight arc := by decide
  let attachment : Arc :=
    ⟨some ⟨.transitNetwork, 0x0a010101, 0x0a010101, 1⟩, square.lsdb.database[4]⟩
  have direct : square.network.leaves square.lsdb.database[0] attachment := by decide
  have stored : ∀ {path net}, square.network.Path square.lsdb.database[0] path net →
      net ∈ square.lsdb.database := by
    intro path net reached
    cases reached with
    | start => exact List.mem_cons_self
    | step _ last => exact last.2.1
  have by_one : ∀ path net, square.network.Shortest square.lsdb.database[0] path net →
      net.lsType = .networkLSA → square.leavesBy path = some 1 := by
    intro path net shortest network
    cases path with
    | nil =>
        rw [shortest.1.of_nil] at network
        cases network
    | cons arc rest =>
        obtain ⟨leaves, onward⟩ := shortest.1.of_cons
        rcases first arc (follows leaves) with one | ⟨target, weight⟩
        · exact congrArg some one
        · exfalso
          obtain rfl := only net (stored shortest.1) network
          have least := shortest.2 ([] ++ [attachment]) (.step .start direct)
          rw [show square.network.target arc = square.lsdb.database[2] from target] at onward
          have more := onward.potential_le potential rfl
            fun lsa arc (leaves : square.network.leaves lsa arc) =>
              rises lsa leaves.1 arc (follows leaves)
          rw [WeightedGraph.cost_cons, weight] at least
          have bound : square.network.cost ([] ++ [attachment]) = 1 := rfl
          have far : potential square.lsdb.database[4] = 1 := rfl
          omega
  refine fun path w shortest _ => ⟨path, shortest, rfl, ?_⟩
  intro before _ _ _ net other network one two
  rw [by_one before net one network, by_one other net two network]

/-- The way over the network and the way over the link. -/
def networkWay : List Arc :=
  [⟨some ⟨.transitNetwork, 0x0a010101, 0x0a010101, 1⟩, square.lsdb.database[4]⟩,
    ⟨none, square.lsdb.database[1]⟩, ⟨some ⟨.pointToPoint, 4, 0x0a010301, 1⟩, square.lsdb.database[3]⟩]

def linkWay : List Arc :=
  [⟨some ⟨.pointToPoint, 3, 0x0a010201, 1⟩, square.lsdb.database[2]⟩,
    ⟨some ⟨.pointToPoint, 4, 0x0a010401, 1⟩, square.lsdb.database[3]⟩]

theorem square_least {path : List Arc}
    (reached : square.network.Path square.lsdb.database[0] path square.lsdb.database[3]) :
    2 ≤ square.network.cost path := by
  let potential : GlobalRoutingLSA → ℕ := fun lsa =>
    if lsa.linkStateId = 1 then 0 else if lsa.linkStateId = 4 then 2 else 1
  have rises : ∀ lsa ∈ square.lsdb.database, ∀ arc ∈ square.lsdb.arcs lsa,
      potential arc.target ≤ potential lsa + square.network.weight arc := by decide
  exact reached.potential_le potential rfl fun lsa arc (leaves : square.network.leaves lsa arc) =>
    rises lsa leaves.1 arc (GlobalRouteManagerLSDB.arcs_of_leaves square_unique leaves)

/-- Both first hops to the last router are kept. -/
theorem spfTree_keepsFirstHops_square :
    (square.network.Shortest square.lsdb.database[0] networkWay square.lsdb.database[3] ∧
      square.network.Shortest square.lsdb.database[0] linkWay square.lsdb.database[3] ∧
        square.leavesBy networkWay = some 1 ∧ square.leavesBy linkWay = some 2) ∧
    ∃ tree, square.spfTree 5 = some tree ∧ square.KeepsFirstHops square.lsdb.database[0] tree := by
  refine ⟨⟨⟨?_, fun other reached => square_least reached⟩,
    ⟨?_, fun other reached => square_least reached⟩, by decide, by decide⟩, ?_⟩
  · exact ((WeightedGraph.Path.start.step (by decide)).step (by decide)).step (by decide)
  · exact (WeightedGraph.Path.start.step (by decide)).step (by decide)
  · exact spfTree_keepsFirstHops square_calculable square_unique (by decide) rfl rfl
      (bounded_of_length (by decide) byRank) square_clearFirstHops (by decide)

/-- Two routers lead from the root to one network, with equal costs, and one more router is on it. -/
def twoWays : GlobalRouteManager where
  lsdb := {
    database := [
      { lsType := .routerLSA, linkStateId := 1
        linkRecords := [⟨.pointToPoint, 2, 0x0a010101, 1⟩, ⟨.pointToPoint, 3, 0x0a010201, 1⟩] },
      { lsType := .routerLSA, linkStateId := 2
        linkRecords := [⟨.pointToPoint, 1, 0x0a010102, 1⟩,
          ⟨.transitNetwork, 0x0a010301, 0x0a010301, 1⟩] },
      { lsType := .routerLSA, linkStateId := 3
        linkRecords := [⟨.pointToPoint, 1, 0x0a010202, 1⟩,
          ⟨.transitNetwork, 0x0a010301, 0x0a010302, 1⟩] },
      { lsType := .routerLSA, linkStateId := 4
        linkRecords := [⟨.transitNetwork, 0x0a010301, 0x0a010303, 1⟩] },
      { lsType := .networkLSA, linkStateId := 0x0a010301, networkLSANetworkMask := 0xffffff00
        attachedRouters := [0x0a010301, 0x0a010302, 0x0a010303] }]
    sorted := by decide }
  spfroot := 1
  outgoing := fun a _ => if a = 0x0a010101 then 1 else if a = 0x0a010201 then 2 else -1
  pointer := fun id => id.toNat

def secondWay : List Arc :=
  [⟨some ⟨.pointToPoint, 3, 0x0a010201, 1⟩, twoWays.lsdb.database[2]⟩,
    ⟨some ⟨.transitNetwork, 0x0a010301, 0x0a010302, 1⟩, twoWays.lsdb.database[4]⟩,
    ⟨none, twoWays.lsdb.database[3]⟩]

theorem twoWays_unique : AddressesUnique twoWays.lsdb := by
  simp [AddressesUnique, HasTransitAddress, twoWays]

theorem secondWay_shortest :
    twoWays.network.Shortest twoWays.lsdb.database[0] secondWay twoWays.lsdb.database[3] := by
  refine ⟨((WeightedGraph.Path.start.step (by decide)).step (by decide)).step (by decide), ?_⟩
  intro other reached
  let potential : GlobalRoutingLSA → ℕ := fun lsa =>
    if lsa.linkStateId = 1 then 0 else if lsa.linkStateId = 2 ∨ lsa.linkStateId = 3 then 1 else 2
  have rises : ∀ lsa ∈ twoWays.lsdb.database, ∀ arc ∈ twoWays.lsdb.arcs lsa,
      potential arc.target ≤ potential lsa + twoWays.network.weight arc := by decide
  exact reached.potential_le potential rfl
    fun lsa arc (leaves : twoWays.network.leaves lsa arc) =>
      rises lsa leaves.1 arc (GlobalRouteManagerLSDB.arcs_of_leaves twoWays_unique leaves)

theorem twoWays_loses_first_hop :
    Consistent twoWays.lsdb ∧ AttachedOnce twoWays.lsdb ∧ AddressesUnique twoWays.lsdb ∧
      MetricsPositive twoWays.lsdb ∧
      twoWays.lsdb.getLSA twoWays.spfroot = some twoWays.lsdb.database[0] ∧
      ¬ ∃ tree, twoWays.spfTree 5 = some tree ∧
        twoWays.KeepsFirstHops twoWays.lsdb.database[0] tree := by
  refine ⟨⟨by decide, by decide, by decide, by decide, by simp [twoWays]⟩, by decide,
    twoWays_unique, by decide, rfl, ?_⟩
  rintro ⟨tree, ran, keeps⟩
  obtain ⟨vertex, member, same, exit, kept, leaves⟩ :=
    keeps _ _ secondWay_shortest (by decide) rfl
  have first : ((twoWays.spfTree 5).all fun tree => tree.all fun vertex =>
      vertex.lsa ≠ twoWays.lsdb.database[3] ∨ ∀ exit ∈ vertex.ecmpRootExits, exit.2 = 1) = true := by
    decide
  rw [ran] at first
  have one := of_decide_eq_true (List.all_eq_true.mp first vertex member)
  rcases one with other | one
  · exact other same
  · have interface : twoWays.leavesBy secondWay = some 2 := by decide
    rw [interface, one exit kept] at leaves
    cases leaves

end GlobalRouteManager

end FISim.Routing
