import FISim.NameResolution.Moves

/-!
The messages of the name resolution service, counted over runs without end.  A
query that climbs and a response that comes back are paid for out of the room
that is left above or below the node, so that finitely many calls lead to
finitely many messages wherever every chain of superiors ends.
-/

namespace FISim.NameResolution

open Transition

variable {Node : Type} [DecidableEq Node]

def IsCall : Action Node → Prop
  | .insert _ _ _ | .lookup _ _ _ => True
  | _ => False

instance : ∀ action : Action Node, Decidable (IsCall action)
  | .insert _ _ _ | .lookup _ _ _ => isTrue trivial
  | .report _ | .deliverUp _ _ | .deliverDown _ _ | .loseUp _ _ | .loseDown _ _ =>
      isFalse fun call => call

/-- Only finitely many messages are sent in a run without end whose calls are finitely many. -/
def Terminates (hierarchy : Hierarchy Node) : Prop :=
  ∀ trace : Unbounded (step hierarchy) {},
    {time | ∃ action, trace.action time = some action ∧ IsCall action}.Finite →
      ∃ bound, ∀ time, (trace.state time).sent.length ≤ bound

def upWeight (rank : Node → ℕ) (room : ℕ) (node : Node) (header : CNRSHeader) : ℕ :=
  if header.method = .query then rank node + room + 2 else rank node

def queueWeight (rank : Node → ℕ) (room : ℕ) (node : Node) (queue : List CNRSHeader) : ℕ :=
  (queue.map (upWeight rank room node)).sum

def downWeight (rank : Node → ℕ) (room : ℕ) (node : Node) (queue : List CNRSHeader) : ℕ :=
  queue.length * (room + 1 - rank node)

def reportWeight (rank : Node → ℕ) (node : Node)
    (reports : List (Name × CybertwinInterfaceList)) : ℕ :=
  reports.length * (rank node + 1)

def potential [Fintype Node] (rank : Node → ℕ) (room : ℕ) (net : Network Node) : ℕ :=
  ∑ node, queueWeight rank room node (net.up node) +
    ∑ node, downWeight rank room node (net.down node) +
      ∑ node, reportWeight rank node (net.reports node) + net.sent.length

def income (room : ℕ) (action : Action Node) : ℕ := if IsCall action then 2 * room + 3 else 0

omit [DecidableEq Node] in
theorem income_call (room : ℕ) {action : Action Node} (call : IsCall action) :
    income room action = 2 * room + 3 := if_pos call

section Potential

variable [Fintype Node] (rank : Node → ℕ) (room : ℕ) (net : Network Node)

theorem potential_sendUp (node : Node) (header : CNRSHeader) :
    potential rank room (net.sendUp node header) =
      potential rank room net + upWeight rank room node header + 1 := by
  have queued := sum_update (queueWeight rank room) net.up node (net.up node ++ [header])
  have more : queueWeight rank room node (net.up node ++ [header]) =
      queueWeight rank room node (net.up node) + upWeight rank room node header := by
    simp [queueWeight]
  simp only [potential, Network.sendUp, List.length_append, List.length_singleton]
  omega

theorem potential_sendDown (node : Node) (header : CNRSHeader) :
    potential rank room (net.sendDown node header) =
      potential rank room net + (room + 1 - rank node) + 1 := by
  have queued := sum_update (downWeight rank room) net.down node (net.down node ++ [header])
  have more : downWeight rank room node (net.down node ++ [header]) =
      downWeight rank room node (net.down node) + (room + 1 - rank node) := by
    simp [downWeight, Nat.add_mul]
  simp only [potential, Network.sendDown, List.length_append, List.length_singleton]
  omega

theorem potential_takeUp {node : Node} {index : ℕ} {header : CNRSHeader}
    (found : (net.up node)[index]? = some header) :
    potential rank room (net.takeUp node index) + upWeight rank room node header =
      potential rank room net := by
  have queued := sum_update (queueWeight rank room) net.up node ((net.up node).eraseIdx index)
  have fewer : upWeight rank room node header +
      queueWeight rank room node ((net.up node).eraseIdx index) =
        queueWeight rank room node (net.up node) := by
    have same := ((taken_perm found).map (upWeight rank room node)).sum_eq
    simpa [queueWeight] using same
  simp only [potential, Network.takeUp]
  omega

theorem potential_takeDown {node : Node} {index : ℕ} {header : CNRSHeader}
    (found : (net.down node)[index]? = some header) :
    potential rank room (net.takeDown node index) + (room + 1 - rank node) =
      potential rank room net := by
  have queued := sum_update (downWeight rank room) net.down node ((net.down node).eraseIdx index)
  have fewer : downWeight rank room node ((net.down node).eraseIdx index) +
      (room + 1 - rank node) = downWeight rank room node (net.down node) := by
    have length := (taken_perm found).length_eq
    rw [List.length_cons] at length
    rw [downWeight, downWeight, ← length, Nat.add_mul, Nat.one_mul]
  simp only [potential, Network.takeDown]
  omega

theorem potential_setReports (node : Node) (reports : List (Name × CybertwinInterfaceList)) :
    potential rank room (net.setReports node reports) +
        reportWeight rank node (net.reports node) =
      potential rank room net + reportWeight rank node reports := by
  have queued := sum_update (reportWeight rank) net.reports node reports
  simp only [potential, Network.setReports]
  omega

theorem potential_setService (node : Node) (service : Service Node) :
    potential rank room (net.setService node service) = potential rank room net := rfl

theorem potential_learned (node : Node) (header : CNRSHeader) :
    potential rank room (net.learned node header) = potential rank room net := by
  unfold Network.learned
  split
  · rfl
  · rfl

theorem potential_stored (hierarchy : Hierarchy Node) (node : Node) (name : Name)
    (interfaces : CybertwinInterfaceList) :
    potential rank room (net.stored hierarchy node name interfaces) ≤
      potential rank room net + (rank node + 1) := by
  rw [Network.stored_eq]
  split
  · omega
  · have paid := potential_setReports rank room (net.setItem node name interfaces) node
      (net.reports node ++ if hierarchy.isCNRSRoot node then [] else [(name, interfaces)])
    rw [show (net.setItem node name interfaces).reports = net.reports from rfl,
      Network.setItem, potential_setService, ← Network.setItem] at paid
    have more : reportWeight rank node
        (net.reports node ++ if hierarchy.isCNRSRoot node then [] else [(name, interfaces)]) ≤
          reportWeight rank node (net.reports node) + (rank node + 1) := by
      split
      · simp [reportWeight]
      · simp [reportWeight, Nat.add_mul]
    omega

end Potential

variable {hierarchy : Hierarchy Node} {before after : Network Node} {action : Action Node}

theorem potential_step [Fintype Node] {rank : Node → ℕ} {room : ℕ}
    (down : ∀ start next, hierarchy.superior start = some next → rank next < rank start)
    (limited : ∀ node, rank node ≤ room) (clients : Clients hierarchy before)
    (happened : step hierarchy before action = some after) :
    potential rank room after ≤ potential rank room before + income room action := by
  cases step_move happened with
  | insert node name interfaces =>
      have paid := potential_stored rank room before hierarchy node name interfaces
      have := limited node
      have call : IsCall (.insert node name interfaces : Action Node) := trivial
      rw [income_call room call]
      omega
  | lookupHit node name qId interfaces hit => exact Nat.le_add_right _ _
  | lookupSent node name qId superior miss fresh above =>
      have := limited node
      have call : IsCall (.lookup node name qId : Action Node) := trivial
      rw [potential_sendUp, income_call room call]
      change potential rank room before + (rank node + room + 2) + 1 ≤ _
      omega
  | lookupFailed node name qId miss fresh top => exact Nat.le_add_right _ _
  | reported node superior name interfaces rest pending above fits =>
      have paid := potential_setReports rank room before node rest
      rw [potential_sendUp]
      rw [pending] at paid
      simp only [reportWeight, List.length_cons, Nat.add_mul] at paid
      change potential rank room (before.setReports node rest) + rank node + 1 ≤ _
      omega
  | unreported node name interfaces rest pending top =>
      have paid := potential_setReports rank room before node rest
      rw [pending] at paid
      simp only [reportWeight, List.length_cons, Nat.add_mul] at paid
      omega
  | queryHit node superior index header interfaces above found query hit fits =>
      have taken := potential_takeUp rank room before found
      rw [potential_sendDown]
      simp only [upWeight, query, if_true] at taken
      omega
  | queryForwarded node superior further index header above found query miss beyond =>
      have taken := potential_takeUp rank room before found
      have lower := down node superior above
      rw [potential_sendUp]
      simp only [upWeight, query, if_true, queryHeader] at taken ⊢
      change potential rank room (before.takeUp node index) + _ + 1 ≤ _
      omega
  | insertArrived node superior index header above found insert =>
      have taken := potential_takeUp rank room before found
      have lower := down node superior above
      have paid := potential_stored rank room (before.takeUp node index) hierarchy superior
        header.cuid header.interfaceList
      simp only [upWeight, insert, reduceCtorEq, if_false] at taken
      omega
  | otherUp node superior index header above found other =>
      have taken := potential_takeUp rank room before found
      omega
  | relayed node peer index header found response client fits =>
      have taken := potential_takeDown rank room before found
      have lower := down peer node (clients node header.queryId peer client)
      have := limited peer
      rw [potential_sendDown]
      change potential rank room ((before.takeDown node index).learned node header) + _ + 1 ≤ _
      rw [potential_learned]
      omega
  | called node index header lookup found response noClient entry =>
      have taken := potential_takeDown rank room before found
      change potential rank room ((before.takeDown node index).learned node header) ≤ _
      rw [potential_learned]
      omega
  | unknown node index header found response noClient entry =>
      have taken := potential_takeDown rank room before found
      rw [potential_learned]
      omega
  | otherDown node index header found other =>
      have taken := potential_takeDown rank room before found
      omega
  | lostUp node index header found =>
      have taken := potential_takeUp rank room before found
      omega
  | lostDown node index header found =>
      have taken := potential_takeDown rank room before found
      omega

theorem terminates_of_ends [Fintype Node]
    (ends : ∀ node, Chain.Ends hierarchy.superior node) : Terminates hierarchy := by
  intro trace few
  obtain ⟨rank, down⟩ := Chain.exists_rank ends
  let room := Finset.univ.sup rank
  have limited : ∀ node, rank node ≤ room := fun node => Finset.le_sup (Finset.mem_univ node)
  have finite : {time | trace.income (income room) time ≠ 0}.Finite := by
    refine few.subset ?_
    intro time earned
    change trace.income (income room) time ≠ 0 at earned
    cases acted : trace.action time with
    | none => simp [Unbounded.income, acted] at earned
    | some action =>
        refine ⟨action, acted, ?_⟩
        by_contra silent
        simp [Unbounded.income, acted, income, silent] at earned
  have initial : Clients hierarchy {} := by
    intro node qId peer client
    cases client
  obtain ⟨bound, limits⟩ := trace.bounded (Clients hierarchy) (potential rank room) initial
    (fun _ _ _ clients happened => clients.step happened)
    (fun _ _ _ clients happened => potential_step down limited clients happened) finite
  refine ⟨bound, fun time => ?_⟩
  have := limits time
  simp only [potential] at this
  omega

-- A query that nobody can answer, on its way up.
structure Circling (net : Network Node) (node : Node) (count : ℕ) : Prop where
  empty : ∀ other name, (net.service other).itemCache name = none
  up : net.up = Function.update (fun _ => []) node [queryHeader 0 0]
  sent : net.sent.length = count

theorem Circling.start {node superior : Node} (above : hierarchy.superior node = some superior) :
    ∃ next, NameResolution.step hierarchy {} (.lookup node 0 0) = some next ∧
      Circling next node 1 := by
  refine ⟨(((Network.ask {} node 0).setQuery node 0 (some (.application 0))).sendUp node
    (queryHeader 0 0)), ?_, ?_⟩
  · have asked : ({ method := .query, cuid := 0, queryId := 0 } : CNRSHeader) =
      queryHeader 0 0 := rfl
    simp [NameResolution.step, Service.getCybertwinInterfaceByName, Service.querySuperior, above,
      Network.perform_one, Network.emit, asked, transmit_queryHeader, Network.setQuery]
  · exact ⟨fun _ _ => by simp, rfl, rfl⟩

theorem Circling.step {net : Network Node} {node superior further : Node} {count : ℕ}
    (circling : Circling net node count) (above : hierarchy.superior node = some superior)
    (beyond : hierarchy.superior superior = some further) :
    ∃ next, NameResolution.step hierarchy net (.deliverUp node 0) = some next ∧
      Circling next superior (count + 1) := by
  have found : (net.up node)[0]? = some (queryHeader 0 0) := by simp [circling.up]
  have taken : (net.takeUp node 0).up = fun _ => [] := by
    simp [Network.takeUp, circling.up]
  refine ⟨((net.takeUp node 0).recorded superior 0 node).sendUp superior (queryHeader 0 0),
    ?_, ?_⟩
  · have performed := perform_query (net.takeUp node 0) superior node (queryHeader 0 0)
      (hierarchy.superior superior)
    have miss : ((net.takeUp node 0).service superior).itemCache (queryHeader 0 0).cuid = none :=
      circling.empty superior 0
    rw [beyond, miss] at performed
    simp only [NameResolution.step, above, found, Option.bind_eq_bind, Option.bind_some,
      Service.serviceRecvHandler, beyond]
    exact performed
  · refine ⟨fun other name => ?_, ?_, ?_⟩
    · simpa using circling.empty other name
    · change Function.update (net.takeUp node 0).up superior
        ((net.takeUp node 0).up superior ++ [queryHeader 0 0]) = _
      rw [taken]
      rfl
    · change (net.sent ++ [_]).length = count + 1
      simp [circling.sent]

theorem not_terminates_of_endless {node : Node} (endless : ¬ Chain.Ends hierarchy.superior node) :
    ¬ Terminates hierarchy := by
  have climbs : ∀ steps, ∃ other, Chain.climb hierarchy.superior steps node = some other := by
    intro steps
    cases reached : Chain.climb hierarchy.superior steps node with
    | none => exact absurd ⟨steps, reached⟩ endless
    | some other => exact ⟨other, rfl⟩
  choose place climbed using climbs
  have above : ∀ steps, hierarchy.superior (place steps) = some (place (steps + 1)) := by
    intro steps
    have next := climbed (steps + 1)
    rw [Chain.climb_succ, climbed steps] at next
    exact next
  have first : place 0 = node := (Option.some.inj (climbed 0)).symm
  let action : ℕ → Action Node := fun time =>
    time.casesOn (.lookup node 0 0) fun time => .deliverUp (place time) 0
  let state : ℕ → Network Node := fun time =>
    time.rec {} fun time before => (NameResolution.step hierarchy before (action time)).getD before
  have moves : ∀ time, NameResolution.step hierarchy (state time) (action time) =
      some (state (time + 1)) ∧ Circling (state (time + 1)) (place time) (time + 1) := by
    intro time
    induction time with
    | zero =>
        obtain ⟨next, stepped, circling⟩ := Circling.start (first ▸ above 0)
        have same : state 1 = next := by
          change (NameResolution.step hierarchy {} (.lookup node 0 0)).getD {} = next
          rw [stepped]
          rfl
        rw [Nat.zero_add, same, first]
        exact ⟨stepped, circling⟩
    | succ time ih =>
        obtain ⟨next, stepped, circling⟩ := ih.2.step (above time) (above (time + 1))
        have same : state (time + 2) = next := by
          change (NameResolution.step hierarchy (state (time + 1))
            (.deliverUp (place time) 0)).getD (state (time + 1)) = next
          rw [stepped]
          rfl
        rw [same]
        exact ⟨stepped, circling⟩
  intro terminates
  obtain ⟨bound, limited⟩ := terminates
    { state, action := fun time => some (action time), state_zero := rfl
      idle := fun _ silent => by cases silent
      moves := fun time _ acted => Option.some.inj acted ▸ (moves time).1 } (by
    refine (Set.finite_singleton 0).subset ?_
    rintro time ⟨acted, happened, call⟩
    cases time with
    | zero => rfl
    | succ time =>
        rw [← Option.some.inj happened] at call
        cases call)
  have size := (moves bound).2.sent
  have := limited (bound + 1)
  simp only at this
  omega

/-- Only finitely many messages are ever sent exactly where every chain of superiors ends. -/
theorem terminates_iff_ends [Fintype Node] :
    Terminates hierarchy ↔ ∀ node, Chain.Ends hierarchy.superior node := by
  constructor
  · intro terminates node
    by_contra endless
    exact not_terminates_of_endless endless terminates
  · exact terminates_of_ends

-- Two services that are each other's superior.
def mutualSuperiors : Hierarchy Bool where
  superior := fun node => some !node
  isCNRSRoot := fun _ => false

theorem not_terminates_mutualSuperiors : ¬ Terminates mutualSuperiors := by
  have onwards : ∀ steps node, Chain.climb mutualSuperiors.superior steps node ≠ none := by
    intro steps
    induction steps with
    | zero => exact fun _ stopped => by cases stopped
    | succ steps ih => exact fun node => ih !node
  have endless : ¬ Chain.Ends mutualSuperiors.superior true := by
    rintro ⟨steps, ended⟩
    exact onwards steps true ended
  exact not_terminates_of_endless endless

end FISim.NameResolution
