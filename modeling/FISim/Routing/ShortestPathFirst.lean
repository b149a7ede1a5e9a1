import FISim.Routing.Arcs
import FISim.Routing.CandidateQueue

/-!
The calculation where every record leads somewhere: what one turn of `SPFNext` and the
whole loop keep.  What else is to hold of the tree goes through `spfTree_rule`.
-/

namespace FISim.Routing

namespace GlobalRouteManager

variable (manager : GlobalRouteManager)

/-- What a candidate becomes when its LSA is reached once more. -/
def improved (w : SPFVertex) : Option SPFVertex → SPFVertex
  | none => w
  | some cw =>
      if cw.distanceFromRoot < w.distanceFromRoot then cw
      else if cw.distanceFromRoot = w.distanceFromRoot then
        (cw.mergeRootExitDirections w).mergeParent manager.pointer w
      else w

/-- The candidates after the LSA of the candidate `cw` is reached once more. -/
def reconsidered (w cw : SPFVertex) (candidates : List SPFVertex) : List SPFVertex :=
  if cw.distanceFromRoot < w.distanceFromRoot then candidates
  else if cw.distanceFromRoot = w.distanceFromRoot then
    CandidateQueue.replace (manager.improved w (some cw)) candidates
  else CandidateQueue.reorder (CandidateQueue.replace w candidates)

/-- The LSA of a vertex is in the database, only the root has no exit, and an arc leads from each
parent to the vertex. -/
structure WellMade (done : List SPFVertex) (x : SPFVertex) : Prop where
  stored : x.lsa ∈ manager.lsdb.database
  exits : x.vertexId ≠ manager.spfroot → x.ecmpRootExits ≠ []
  parents : ∀ id ∈ x.parents, ∃ parent ∈ done, parent.vertexId = id ∧
    ∃ arc ∈ manager.lsdb.arcs parent.lsa, arc.target = x.lsa

/-- The statuses of the LSAs, the vertices that were popped and the candidates are in step. -/
structure Search (done : List SPFVertex) (state : SPFState) : Prop where
  distinct : ((done ++ state.candidates).map (·.vertexId)).Nodup
  vertices : ∀ x ∈ done ++ state.candidates, manager.WellMade done x
  tree : ∀ id, state.status id = .inSpfTree ↔ id ∈ done.map (·.vertexId)
  waiting : ∀ id, state.status id = .candidate ↔ id ∈ state.candidates.map (·.vertexId)
  ordered : CandidateQueue.Ordered state.candidates
  start : ∃ x ∈ done, x.vertexId = manager.spfroot ∧ x.vertexType = .routerLSA

/-- The candidates after an arc to an LSA that is not in the tree. -/
def Considered (v : SPFVertex) (arc : Arc) (before after : List SPFVertex) : Prop :=
  ∀ x, x ∈ after ↔
    x = manager.improved (manager.reachedThrough v arc)
      (CandidateQueue.find before arc.target.linkStateId) ∨
    (x ∈ before ∧ x.vertexId ≠ arc.target.linkStateId)

variable {manager}

theorem improved_of_lt {w cw : SPFVertex} (less : cw.distanceFromRoot < w.distanceFromRoot) :
    manager.improved w (some cw) = cw :=
  if_pos less

theorem improved_of_eq {w cw : SPFVertex} (equal : cw.distanceFromRoot = w.distanceFromRoot) :
    manager.improved w (some cw) =
      (cw.mergeRootExitDirections w).mergeParent manager.pointer w := by
  simp [improved, equal]

theorem improved_of_gt {w cw : SPFVertex} (notLess : ¬ cw.distanceFromRoot < w.distanceFromRoot)
    (notEqual : cw.distanceFromRoot ≠ w.distanceFromRoot) :
    manager.improved w (some cw) = w :=
  (if_neg notLess).trans (if_neg notEqual)

theorem improved_lsa {w : SPFVertex} {old : Option SPFVertex} (same : ∀ cw ∈ old, cw.lsa = w.lsa) :
    (manager.improved w old).lsa = w.lsa := by
  cases old with
  | none => rfl
  | some cw =>
      have of := same cw rfl
      simp only [improved]
      split
      · exact of
      · split
        · exact of
        · rfl

theorem WellMade.improved {done : List SPFVertex} {w : SPFVertex} {old : Option SPFVertex}
    (new : manager.WellMade done w) (kept : ∀ cw ∈ old, manager.WellMade done cw ∧ cw.lsa = w.lsa) :
    manager.WellMade done (manager.improved w old) := by
  cases old with
  | none => exact new
  | some cw =>
      obtain ⟨waiting, same⟩ := kept cw rfl
      by_cases less : cw.distanceFromRoot < w.distanceFromRoot
      · rwa [improved_of_lt less]
      · by_cases equal : cw.distanceFromRoot = w.distanceFromRoot
        · rw [improved_of_eq equal]
          refine ⟨waiting.stored, fun other => ?_, fun id member => ?_⟩
          · obtain ⟨exit, inside⟩ := List.exists_mem_of_ne_nil _ (waiting.exits other)
            exact List.ne_nil_of_mem (SPFVertex.mem_mergeRootExitDirections.mpr (Or.inl inside))
          · rcases SPFVertex.mem_mergeParent.mp member with first | second
            · exact waiting.parents id first
            · obtain ⟨parent, settled, known, arc, leaves, target⟩ := new.parents id second
              exact ⟨parent, settled, known, arc, leaves, target.trans same.symm⟩
        · rwa [improved_of_gt less equal]

theorem WellMade.mono {done : List SPFVertex} {x : SPFVertex} (made : manager.WellMade done x)
    (more : List SPFVertex) : manager.WellMade (done ++ more) x := by
  refine ⟨made.stored, made.exits, fun id parent => ?_⟩
  obtain ⟨first, settled, of⟩ := made.parents id parent
  exact ⟨first, List.mem_append_left _ settled, of⟩

variable (manager) in
theorem reconsidered_spec {w cw : SPFVertex} {candidates : List SPFVertex}
    (distinct : (candidates.map (·.vertexId)).Nodup) (known : ∀ v ∈ candidates, v.Known)
    (ordered : CandidateQueue.Ordered candidates) (member : cw ∈ candidates)
    (same : cw.lsa = w.lsa) :
    ((manager.reconsidered w cw candidates).map (·.vertexId)).Perm
        (candidates.map (·.vertexId)) ∧
      CandidateQueue.Ordered (manager.reconsidered w cw candidates) ∧
      ∀ x, x ∈ manager.reconsidered w cw candidates ↔
        x = manager.improved w (some cw) ∨ (x ∈ candidates ∧ x.vertexId ≠ w.vertexId) := by
  have id : cw.vertexId = w.vertexId := congrArg GlobalRoutingLSA.linkStateId same
  have only : ∀ x ∈ candidates, x.vertexId = w.vertexId → x = cw := fun x inside here =>
    List.inj_on_of_nodup_map distinct inside member (here.trans id.symm)
  by_cases less : cw.distanceFromRoot < w.distanceFromRoot
  · rw [reconsidered, if_pos less, improved_of_lt less]
    refine ⟨List.Perm.refl _, ordered, fun x => ⟨fun inside => ?_, ?_⟩⟩
    · by_cases here : x.vertexId = w.vertexId
      · exact Or.inl (only x inside here)
      · exact Or.inr ⟨inside, here⟩
    · rintro (rfl | ⟨inside, -⟩)
      · exact member
      · exact inside
  · by_cases equal : cw.distanceFromRoot = w.distanceFromRoot
    · rw [reconsidered, if_neg less, if_pos equal, improved_of_eq equal]
      refine ⟨by rw [CandidateQueue.replace_ids], CandidateQueue.replace_ordered ?_ ordered, ?_⟩
      · intro x inside here
        rw [only x inside (here.trans id)]
        rfl
      · intro x
        rw [← id]
        have here : cw.vertexId =
            ((cw.mergeRootExitDirections w).mergeParent manager.pointer w).vertexId := rfl
        exact CandidateQueue.mem_replace distinct member here
    · rw [reconsidered, if_neg less, if_neg equal, improved_of_gt less equal]
      have perm := CandidateQueue.reorder_perm (CandidateQueue.replace w candidates)
      have members := fun x => CandidateQueue.mem_replace distinct member id (x := x)
      refine ⟨?_, CandidateQueue.reorder_ordered ?_, fun x => perm.mem_iff.trans (members x)⟩
      · rw [← CandidateQueue.replace_ids w candidates]
        exact perm.map _
      · intro x inside
        rcases (members x).mp inside with rfl | ⟨inside, -⟩
        · have kind := known cw member
          unfold SPFVertex.Known SPFVertex.vertexType at kind ⊢
          rwa [← same]
        · exact known x inside

namespace Search

variable {done : List SPFVertex} {state : SPFState}

theorem known (search : manager.Search done state) {x : SPFVertex}
    (member : x ∈ done ++ state.candidates) : x.lsa ∈ manager.lsdb.database :=
  (search.vertices x member).stored

theorem lsa_eq (search : manager.Search done state) {x : SPFVertex}
    (member : x ∈ done ++ state.candidates) {lsa : GlobalRoutingLSA}
    (stored : lsa ∈ manager.lsdb.database) (same : x.vertexId = lsa.linkStateId) : x.lsa = lsa :=
  manager.lsdb.eq_of_linkStateId (search.known member) stored same

theorem router_of_root (search : manager.Search done state) {x : SPFVertex}
    (member : x ∈ done ++ state.candidates) (root : x.vertexId = manager.spfroot) :
    x.vertexType = .routerLSA := by
  obtain ⟨first, settled, id, router⟩ := search.start
  have same := search.lsa_eq (List.mem_append_left _ settled) (search.known member)
    (id.trans root.symm)
  rw [← router]
  exact (congrArg GlobalRoutingLSA.lsType same).symm

theorem candidates_distinct (search : manager.Search done state) :
    (state.candidates.map (·.vertexId)).Nodup := by
  have distinct := search.distinct
  rw [List.map_append] at distinct
  exact (List.nodup_append.mp distinct).2.1

theorem candidate_known (search : manager.Search done state) (closed : Closed manager.lsdb) :
    ∀ x ∈ done ++ state.candidates, x.Known := by
  intro x member
  exact (closed.kinds x.lsa (search.known member)).imp id And.left

theorem not_done (search : manager.Search done state) {x y : SPFVertex} (first : x ∈ done)
    (second : y ∈ state.candidates) : x.vertexId ≠ y.vertexId := by
  have distinct := search.distinct
  rw [List.map_append] at distinct
  exact (List.nodup_append.mp distinct).2.2 _ (List.mem_map_of_mem first) _
    (List.mem_map_of_mem second)

theorem not_root (search : manager.Search done state) {x : SPFVertex}
    (member : x ∈ state.candidates) : x.vertexId ≠ manager.spfroot := by
  obtain ⟨first, settled, root, -⟩ := search.start
  exact fun same => search.not_done settled member (root.trans same.symm)

theorem found (search : manager.Search done state) {lsa : GlobalRoutingLSA}
    (stored : lsa ∈ manager.lsdb.database) {cw : SPFVertex}
    (candidate : CandidateQueue.find state.candidates lsa.linkStateId = some cw) :
    cw ∈ state.candidates ∧ cw.lsa = lsa := by
  have member := List.mem_of_find?_eq_some candidate
  have same : cw.vertexId = lsa.linkStateId := by simpa using List.find?_some candidate
  exact ⟨member, search.lsa_eq (List.mem_append_right _ member) stored same⟩

theorem improved_target (search : manager.Search done state) {v : SPFVertex} {arc : Arc}
    (stored : arc.target ∈ manager.lsdb.database) :
    (manager.improved (manager.reachedThrough v arc)
      (CandidateQueue.find state.candidates arc.target.linkStateId)).lsa = arc.target :=
  improved_lsa fun _ candidate => (search.found stored candidate).2

theorem push (search : manager.Search done state) (closed : Closed manager.lsdb)
    {w : SPFVertex} (made : manager.WellMade done w)
    (fresh : state.status w.vertexId = .notExplored) :
    manager.Search done { state.setStatus w.vertexId .candidate with
      candidates := CandidateQueue.push w state.candidates } := by
  have perm := CandidateQueue.push_perm w state.candidates
  have all : (done ++ CandidateQueue.push w state.candidates).Perm
      (w :: (done ++ state.candidates)) :=
    (perm.append_left done).trans List.perm_middle
  have notDone : w.vertexId ∉ done.map (·.vertexId) := by
    rw [← search.tree, fresh]
    exact SPFStatus.noConfusion
  have notWaiting : w.vertexId ∉ state.candidates.map (·.vertexId) := by
    rw [← search.waiting, fresh]
    exact SPFStatus.noConfusion
  refine ⟨?_, fun x member => ?_, fun id => ?_, fun id => ?_, ?_, search.start⟩
  · refine ((all.map _).nodup_iff).mpr (List.nodup_cons.mpr ⟨?_, search.distinct⟩)
    rw [List.map_append, List.mem_append]
    exact not_or.mpr ⟨notDone, notWaiting⟩
  · rcases List.mem_cons.mp (all.mem_iff.mp member) with rfl | member
    · exact made
    · exact search.vertices x member
  · by_cases here : id = w.vertexId
    · subst here
      simp [SPFState.setStatus, notDone]
    · simpa [SPFState.setStatus, here] using search.tree id
  · rw [(perm.map _).mem_iff, List.map_cons, List.mem_cons]
    by_cases here : id = w.vertexId
    · simp [SPFState.setStatus, here]
    · simpa [SPFState.setStatus, here] using search.waiting id
  · exact CandidateQueue.push_ordered ((closed.kinds w.lsa made.stored).imp id And.left)
      (fun v member => search.candidate_known closed v (List.mem_append_right _ member))
      search.ordered

theorem change (search : manager.Search done state) {cw : SPFVertex} {candidates : List SPFVertex}
    (made : manager.WellMade done cw)
    (ids : (candidates.map (·.vertexId)).Perm (state.candidates.map (·.vertexId)))
    (ordered : CandidateQueue.Ordered candidates)
    (members : ∀ x ∈ candidates, x = cw ∨ x ∈ state.candidates) :
    manager.Search done { state with candidates } := by
  refine ⟨?_, fun x member => ?_, search.tree, fun id => ?_, ordered, search.start⟩
  · rw [List.map_append]
    refine ((ids.append_left _).nodup_iff).mpr ?_
    rw [← List.map_append]
    exact search.distinct
  · rcases List.mem_append.mp member with settled | waiting
    · exact search.vertices x (List.mem_append_left _ settled)
    · rcases members x waiting with rfl | waiting
      · exact made
      · exact search.vertices x (List.mem_append_right _ waiting)
  · exact (search.waiting id).trans ids.mem_iff.symm

theorem length_le (search : manager.Search done state) :
    done.length ≤ manager.lsdb.database.length := by
  have distinct : (done.map (·.lsa)).Nodup := by
    have ids := search.distinct
    rw [List.map_append] at ids
    have ids := (List.nodup_append.mp ids).1
    exact List.Nodup.of_map (·.linkStateId) (by rw [List.map_map]; exact ids)
  have inside : ∀ lsa ∈ done.map (·.lsa), lsa ∈ manager.lsdb.database := by
    intro lsa member
    obtain ⟨x, settled, rfl⟩ := List.mem_map.mp member
    exact search.known (List.mem_append_left _ settled)
  have bound := (List.subperm_of_subset distinct inside).length_le
  rwa [List.length_map] at bound

theorem first_key_le (search : manager.Search done state) {next : SPFVertex} {rest : List SPFVertex}
    (queue : state.candidates = next :: rest) {y : SPFVertex} (member : y ∈ next :: rest) :
    next.key ≤ y.key := by
  have ordered := search.ordered
  rw [queue] at ordered
  rcases List.mem_cons.mp member with rfl | later
  · exact le_refl _
  · exact (List.pairwise_cons.mp ordered).1 _ (List.mem_map_of_mem later)

theorem first_le (search : manager.Search done state) {next : SPFVertex} {rest : List SPFVertex}
    (queue : state.candidates = next :: rest) {y : SPFVertex} (member : y ∈ next :: rest) :
    next.distanceFromRoot.toNat ≤ y.distanceFromRoot.toNat := by
  rcases Prod.Lex.toLex_le_toLex.mp (search.first_key_le queue member) with less | ⟨same, -⟩
  · exact less.le
  · exact same.le

theorem pop (search : manager.Search done state) {next : SPFVertex} {rest : List SPFVertex}
    (queue : state.candidates = next :: rest) :
    manager.Search (done ++ [next])
      (({ state with candidates := rest } : SPFState).setStatus next.vertexId .inSpfTree) := by
  have same : done ++ state.candidates = (done ++ [next]) ++ rest := by simp [queue]
  have distinct := search.candidates_distinct
  rw [queue] at distinct
  obtain ⟨absent, -⟩ := List.nodup_cons.mp distinct
  refine ⟨same ▸ search.distinct, fun x member => ?_, fun id => ?_, fun id => ?_, ?_, ?_⟩
  · exact (search.vertices x (same ▸ member)).mono [next]
  · by_cases here : id = next.vertexId
    · simp [SPFState.setStatus, here]
    · simpa [SPFState.setStatus, here] using search.tree id
  · have before := search.waiting id
    rw [queue, List.map_cons, List.mem_cons] at before
    by_cases here : id = next.vertexId
    · subst here
      simpa [SPFState.setStatus] using absent
    · simpa [SPFState.setStatus, here] using before
  · have ordered := search.ordered
    rw [queue] at ordered
    exact (List.pairwise_cons.mp ordered).2
  · obtain ⟨x, settled, root⟩ := search.start
    exact ⟨x, List.mem_append_left _ settled, root⟩

end Search

section Turn

variable (calculable : manager.Calculable)
  {done : List SPFVertex} {state : SPFState} (search : manager.Search done state) {v : SPFVertex}
  (settled : v ∈ done) {arc : Arc} (leaves : arc ∈ manager.lsdb.arcs v.lsa)
include calculable search settled leaves

theorem spfNexthopCalculation_reached {w : SPFVertex} (same : w.lsa = arc.target) :
    manager.spfNexthopCalculation v w arc.record (v.distanceFromRoot + arc.cost) =
      some (manager.reachedThrough v arc) := by
  have member := List.mem_append_left state.candidates settled
  have way := calculable.leaves_of_arcs (search.known member) leaves
  refine spfNexthopCalculation_eq calculable way
    (search.router_of_root member) (search.vertices v member).exits (fun network parent => ?_) same _
  obtain ⟨start, first, id, back, of, target⟩ :=
    (search.vertices v member).parents manager.spfroot (List.mem_of_mem_head? parent)
  have network : back.target.lsType = .networkLSA := target ▸ network
  have one := calculable.attached start.lsa back arc id
    (calculable.leaves_of_arcs (search.known (List.mem_append_left _ first)) of) network
    (target ▸ way)
  rwa [target] at one

theorem considerNeighbour_notExplored
    (status : state.status arc.target.linkStateId = .notExplored) :
    manager.considerNeighbour v state arc.record arc.target =
      some { state.setStatus arc.target.linkStateId .candidate with
        candidates := CandidateQueue.push (manager.reachedThrough v arc) state.candidates } := by
  have calculated := spfNexthopCalculation_reached calculable search settled leaves
    (w := { lsa := arc.target }) rfl
  simp [considerNeighbour, status, distanceThrough_eq leaves, calculated, SPFState.setStatus]

theorem considerNeighbour_candidate {cw : SPFVertex} (same : cw.lsa = arc.target)
    (status : state.status arc.target.linkStateId = .candidate)
    (found : CandidateQueue.find state.candidates arc.target.linkStateId = some cw) :
    manager.considerNeighbour v state arc.record arc.target =
      some { state with
        candidates := manager.reconsidered (manager.reachedThrough v arc) cw state.candidates } := by
  have calculated := fun w same =>
    spfNexthopCalculation_reached calculable search settled leaves (w := w) same
  simp only [considerNeighbour, status, distanceThrough_eq leaves, found, reconsidered, improved]
  by_cases less : cw.distanceFromRoot < v.distanceFromRoot + arc.cost
  · simp [reachedThrough, less]
  · by_cases equal : cw.distanceFromRoot = v.distanceFromRoot + arc.cost
    · simp [reachedThrough, equal, calculated { lsa := arc.target } rfl]
    · simp [reachedThrough, less, equal, calculated cw same]

end Turn

theorem considerNeighbour_spec (calculable : manager.Calculable) {done : List SPFVertex} {state : SPFState}
    (search : manager.Search done state) {v : SPFVertex} (settled : v ∈ done) {arc : Arc}
    (leaves : arc ∈ manager.lsdb.arcs v.lsa) :
    ∃ after, manager.considerNeighbour v state arc.record arc.target = some after ∧
      manager.Search done after ∧
      ((∃ x ∈ done, x.lsa = arc.target) ∧ after.candidates = state.candidates ∨
        (∀ x ∈ done, x.lsa ≠ arc.target) ∧
          manager.Considered v arc state.candidates after.candidates) := by
  have stored := (GlobalRouteManagerLSDB.mem_arcs leaves).1
  have made : manager.WellMade done (manager.reachedThrough v arc) := by
    refine ⟨stored, fun _ => ?_, fun id parent => ?_⟩
    · exact exitsThrough_ne_nil (search.vertices v (List.mem_append_left _ settled)).exits arc
    · exact ⟨v, settled, (List.mem_singleton.mp parent).symm, arc, leaves, rfl⟩
  have outside : state.status arc.target.linkStateId ≠ .inSpfTree →
      ∀ x ∈ done, x.lsa ≠ arc.target := by
    intro status x first same
    exact status ((search.tree _).mpr (List.mem_map.mpr ⟨x, first, congrArg _ same⟩))
  cases status : state.status arc.target.linkStateId with
  | inSpfTree =>
      obtain ⟨x, first, same⟩ := List.mem_map.mp ((search.tree _).mp status)
      refine ⟨state, by simp [considerNeighbour, status], search, Or.inl ⟨⟨x, first, ?_⟩, rfl⟩⟩
      exact search.lsa_eq (List.mem_append_left _ first) stored same
  | notExplored =>
      have absent : ∀ x ∈ state.candidates, x.vertexId ≠ arc.target.linkStateId := by
        intro x waiting same
        have other := (search.waiting _).mpr (List.mem_map.mpr ⟨x, waiting, same⟩)
        rw [status] at other
        cases other
      have unknown : CandidateQueue.find state.candidates arc.target.linkStateId = none := by
        simpa [CandidateQueue.find] using absent
      refine ⟨_, considerNeighbour_notExplored calculable search settled leaves status,
        search.push calculable.toClosed made status, Or.inr ⟨outside (by simp [status]), ?_⟩⟩
      intro x
      rw [unknown, (CandidateQueue.push_perm _ _).mem_iff, List.mem_cons]
      exact or_congr Iff.rfl ⟨fun waiting => ⟨waiting, absent x waiting⟩, And.left⟩
  | candidate =>
      obtain ⟨cw, waiting, same⟩ := List.mem_map.mp ((search.waiting _).mp status)
      have found : CandidateQueue.find state.candidates arc.target.linkStateId = some cw := by
        rw [← same]
        exact (CandidateQueue.find_eq_some search.candidates_distinct).mpr waiting
      have lsa := search.lsa_eq (List.mem_append_right _ waiting) stored same
      have better : manager.WellMade done
          (manager.improved (manager.reachedThrough v arc) (some cw)) := by
        refine made.improved ?_
        rintro _ ⟨⟩
        exact ⟨search.vertices cw (List.mem_append_right _ waiting), lsa⟩
      obtain ⟨ids, ordered, members⟩ := reconsidered_spec manager
        search.candidates_distinct
        (fun x inside => search.candidate_known calculable.toClosed x (List.mem_append_right _ inside))
        search.ordered waiting (w := manager.reachedThrough v arc) lsa
      refine ⟨_, considerNeighbour_candidate calculable search settled leaves lsa status found,
        search.change better ids ordered ?_, Or.inr ⟨outside (by simp [status]), ?_⟩⟩
      · intro x inside
        exact ((members x).mp inside).imp id And.left
      · intro x
        rw [found]
        exact members x

/-- A property of the popped vertices, the examined arcs and the candidates that every turn keeps. -/
structure Kept (manager : GlobalRouteManager)
    (Property : List SPFVertex → List (SPFVertex × Arc) → List SPFVertex → Prop) : Prop where
  passes : ∀ {done v state examined arc}, manager.Search (done ++ [v]) state →
    arc ∈ manager.lsdb.arcs v.lsa → (∃ x ∈ done ++ [v], x.lsa = arc.target) →
    Property (done ++ [v]) examined state.candidates →
    Property (done ++ [v]) (examined ++ [(v, arc)]) state.candidates
  improves : ∀ {done v state after examined arc}, manager.Search (done ++ [v]) state →
    manager.Search (done ++ [v]) after → arc ∈ manager.lsdb.arcs v.lsa →
    (∀ x ∈ done ++ [v], x.lsa ≠ arc.target) →
    manager.Considered v arc state.candidates after.candidates →
    Property (done ++ [v]) examined state.candidates →
    Property (done ++ [v]) (examined ++ [(v, arc)]) after.candidates
  pops : ∀ {done state examined next rest}, manager.Search done state →
    (∀ x ∈ done, ∀ arc ∈ manager.lsdb.arcs x.lsa, (x, arc) ∈ examined) →
    state.candidates = next :: rest → Property done examined (next :: rest) →
    Property (done ++ [next]) examined rest

section Rule

variable {Property : List SPFVertex → List (SPFVertex × Arc) → List SPFVertex → Prop}
  (calculable : manager.Calculable) (kept : manager.Kept Property)
include calculable kept

theorem foldlM_arcs_rule {done : List SPFVertex} {v : SPFVertex} {arcs : List Arc}
    (leave : ∀ arc ∈ arcs, arc ∈ manager.lsdb.arcs v.lsa) {state : SPFState}
    (search : manager.Search (done ++ [v]) state) {examined : List (SPFVertex × Arc)}
    (holds : Property (done ++ [v]) examined state.candidates) :
    ∃ after, arcs.foldlM
        (fun state arc => manager.considerNeighbour v state arc.record arc.target) state =
          some after ∧
      manager.Search (done ++ [v]) after ∧
      Property (done ++ [v]) (examined ++ arcs.map (v, ·)) after.candidates := by
  induction arcs generalizing state examined with
  | nil => exact ⟨state, rfl, search, by simpa using holds⟩
  | cons arc rest ih =>
      obtain ⟨between, ran, search', turn⟩ := considerNeighbour_spec calculable search
        (List.mem_append_right done (List.mem_singleton_self v)) (leave arc (by simp))
      have holds' : Property (done ++ [v]) (examined ++ [(v, arc)]) between.candidates := by
        rcases turn with ⟨inTree, same⟩ | ⟨outside, considered⟩
        · rw [same]
          exact kept.passes search (leave arc (by simp)) inTree holds
        · exact kept.improves search search' (leave arc (by simp)) outside considered holds
      obtain ⟨after, later, final⟩ :=
        ih (fun arc member => leave arc (by simp [member])) search' holds'
      refine ⟨after, ?_, by simpa using final⟩
      rw [List.foldlM_cons, ran]
      exact later

/-- Each vertex is popped at most once, so that the loop ends. -/
theorem spfLoop_rule {fuel : ℕ} {done : List SPFVertex} {v : SPFVertex}
    (enough : manager.lsdb.database.length ≤ done.length + fuel) {state : SPFState}
    (search : manager.Search (done ++ [v]) state) {examined : List (SPFVertex × Arc)}
    (earlier : ∀ x ∈ done, ∀ arc ∈ manager.lsdb.arcs x.lsa, (x, arc) ∈ examined)
    (holds : Property (done ++ [v]) examined state.candidates) :
    ∃ tree final examined, manager.spfLoop fuel v state = some tree ∧
      manager.Search (done ++ v :: tree) final ∧ final.candidates = [] ∧
      (∀ x ∈ done ++ v :: tree, ∀ arc ∈ manager.lsdb.arcs x.lsa, (x, arc) ∈ examined) ∧
      Property (done ++ v :: tree) examined [] := by
  induction fuel generalizing done v state examined with
  | zero =>
      have bound := search.length_le
      rw [List.length_append, List.length_singleton] at bound
      omega
  | succ fuel ih =>
      have stored : v.lsa ∈ manager.lsdb.database := search.known (by simp)
      obtain ⟨after, ran, search', holds'⟩ :=
        foldlM_arcs_rule calculable kept (fun arc member => member) search holds
      rw [← spfNext_eq calculable.toClosed stored] at ran
      have all : ∀ x ∈ done ++ [v], ∀ arc ∈ manager.lsdb.arcs x.lsa,
          (x, arc) ∈ examined ++ (manager.lsdb.arcs v.lsa).map (v, ·) := by
        intro x member arc leaves
        rcases List.mem_append.mp member with before | last
        · exact List.mem_append_left _ (earlier x before arc leaves)
        · obtain rfl := List.mem_singleton.mp last
          exact List.mem_append_right _ (List.mem_map.mpr ⟨arc, leaves, rfl⟩)
      cases queue : after.candidates with
      | nil =>
          rw [queue] at holds'
          exact ⟨[], after, _, by simp [spfLoop, ran, queue], search', queue, all, holds'⟩
      | cons next rest =>
          rw [queue] at holds'
          have type : next.vertexType = .routerLSA ∨ next.vertexType = .networkLSA :=
            search'.candidate_known calculable.toClosed next (by simp [queue])
          obtain ⟨tree, final, examined, later, search'', finished, complete, result⟩ :=
            ih (by rw [List.length_append, List.length_singleton]; omega) (search'.pop queue) all
              (kept.pops search' all queue holds')
          refine ⟨next :: tree, final, examined, ?_, ?_, finished, ?_, ?_⟩
          · simp [spfLoop, ran, queue, type, later]
          · simpa using search''
          · simpa using complete
          · simpa using result

theorem spfTree_rule {fuel : ℕ} (enough : manager.lsdb.database.length ≤ fuel)
    {lsa : GlobalRoutingLSA} (root : manager.lsdb.getLSA manager.spfroot = some lsa)
    (router : lsa.lsType = .routerLSA)
    (initial : Property [{ lsa, distanceFromRoot := 0 }] [] []) :
    ∃ tree final examined, manager.spfTree fuel = some tree ∧
      manager.Search ({ lsa, distanceFromRoot := 0 } :: tree) final ∧ final.candidates = [] ∧
      (∀ x ∈ ({ lsa, distanceFromRoot := 0 } : SPFVertex) :: tree,
        ∀ arc ∈ manager.lsdb.arcs x.lsa, (x, arc) ∈ examined) ∧
      Property ({ lsa, distanceFromRoot := 0 } :: tree) examined [] := by
  obtain ⟨stored, id⟩ := GlobalRouteManagerLSDB.getLSA_eq_some.mp root
  have same : (⟨lsa, 0, [], []⟩ : SPFVertex).vertexId = manager.spfroot := id
  have search : manager.Search ([] ++ [{ lsa, distanceFromRoot := 0 }])
      (({ status := fun _ => .notExplored, candidates := [] } : SPFState).setStatus
        manager.spfroot .inSpfTree) := by
    refine ⟨by simp [SPFState.setStatus], ?_, fun address => ?_, fun address => ?_,
      by simp [SPFState.setStatus, CandidateQueue.Ordered], ⟨_, by simp, same, router⟩⟩
    · intro x member
      obtain rfl : x = ⟨lsa, 0, [], []⟩ := by simpa [SPFState.setStatus] using member
      exact ⟨stored, fun other => absurd same other, fun _ parent => by cases parent⟩
    · by_cases here : address = manager.spfroot
      · simp [SPFState.setStatus, here, same]
      · simp [SPFState.setStatus, here, same]
    · by_cases here : address = manager.spfroot
      · simp [SPFState.setStatus, here]
      · simp [SPFState.setStatus, here]
  obtain ⟨tree, final, examined, ran, result⟩ :=
    spfLoop_rule calculable kept (by simpa using enough) search (by simp) initial
  exact ⟨tree, final, examined, by simp [spfTree, root, ran], result⟩

end Rule

end GlobalRouteManager

end FISim.Routing
