import FISim.NameResolution.Outstanding

/-!
The pending tables of the services, `m_queryCache` and `m_queryClientCache`.  As
long as every query is answered where it arrives, an entry is there exactly while
its query or the answer is on its way.
-/

namespace FISim.NameResolution

open Transition

variable {Node : Type} [DecidableEq Node]

/-- Where nothing is on its way and no event is pending, the tables are empty. -/
structure Emptied (net : Network Node) : Prop where
  queries : Quiet net → ∀ node qId, (net.service node).queryCache qId = none
  clients : Quiet net → ∀ node qId, (net.service node).queryClientCache qId = none

/-- An entry goes only in a step that reports its own answer or failure. -/
structure ReportsFirst (before after : Network Node) : Prop where
  queries : ∀ node qId entry, (before.service node).queryCache qId = some entry →
    (after.service node).queryCache qId ≠ some entry →
      ∃ lookup name interfaces, entry = .application lookup ∧
        before.lookups[lookup]? = some (node, name) ∧
        after.called = before.called ++ [(⟨lookup, name, interfaces⟩ : Call)]
  clients : ∀ node qId peer, (before.service node).queryClientCache qId = some peer →
    (after.service node).queryClientCache qId ≠ some peer →
      ∃ header, after.sent = before.sent ++ [.down peer header] ∧ IsResponse header ∧
        header.queryId = qId

def KeepsEntries (hierarchy : Hierarchy Node) (before : Network Node) (action : Action Node) :
    Prop :=
  ∀ after, step hierarchy before action = some after → ReportsFirst before after

/-- A lookup at a root and a query at a superior find the name, and nothing is lost. -/
def AnsweredAtOnce (hierarchy : Hierarchy Node) (before : Network Node) : Action Node → Prop
  | .lookup node name _ => hierarchy.superior node = none →
      (before.service node).itemCache name ≠ none
  | .deliverUp node index => ∀ superior header, hierarchy.superior node = some superior →
      (before.up node)[index]? = some header → header.method = .query →
        (before.service superior).itemCache header.cuid ≠ none
  | .loseUp _ _ | .loseDown _ _ => False
  | .insert _ _ _ | .report _ | .deliverDown _ _ => True

-- The lookup that waits under an id is one for the name.
def Asked (net : Network Node) (node : Node) (qId : QueryId) (name : Name) : Prop :=
  ∃ lookup, (net.service node).queryCache qId = some (.application lookup) ∧
    net.lookups[lookup]? = some (node, name)

/-- Nobody asks for a sub-node, and each entry has its query or its answer on the way. -/
structure Direct (net : Network Node) : Prop where
  clients : ∀ node qId, (net.service node).queryClientCache qId = none
  entries : ∀ node qId, (net.service node).queryCache qId ≠ some .queryResponse
  balance : ∀ node qId, asking (net.up node) qId + answering (net.down node) qId =
    ((net.service node).queryCache qId).isSome.toNat
  up : ∀ node, ∀ header ∈ net.up node, header.method = .query →
    Asked net node header.queryId header.cuid
  down : ∀ node, ∀ header ∈ net.down node, IsResponse header ∧
    Asked net node header.queryId header.cuid

omit [DecidableEq Node] in
theorem Direct.empty : Direct ({} : Network Node) where
  clients _ _ := rfl
  entries _ _ := by simp
  balance _ _ := rfl
  up _ _ member := absurd member List.not_mem_nil
  down _ _ member := absurd member List.not_mem_nil

variable {hierarchy : Hierarchy Node} {before after : Network Node}

omit [DecidableEq Node] in
theorem Direct.emptied (direct : Direct before) : Emptied before := by
  constructor
  · intro quiet node qId
    have balance := direct.balance node qId
    rw [quiet.up node, quiet.down node] at balance
    cases entry : (before.service node).queryCache qId with
    | none => rfl
    | some callback =>
        rw [entry] at balance
        simp [asking, answering] at balance
  · intro _ node qId
    exact direct.clients node qId

omit [DecidableEq Node] in
theorem Asked.later {node : Node} {qId : QueryId} {name : Name} (asked : Asked before node qId name)
    (queries : (after.service node).queryCache qId = (before.service node).queryCache qId)
    (lookups : before.lookups <+: after.lookups) : Asked after node qId name := by
  obtain ⟨lookup, entry, known⟩ := asked
  obtain ⟨more, same⟩ := lookups
  refine ⟨lookup, queries.trans entry, ?_⟩
  obtain ⟨bound, -⟩ := List.getElem?_eq_some_iff.mp known
  rw [← same, List.getElem?_append_left bound]
  exact known

omit [DecidableEq Node] in
theorem Direct.frame (direct : Direct before)
    (clients : ∀ node,
      (after.service node).queryClientCache = (before.service node).queryClientCache)
    (queries : ∀ node, (after.service node).queryCache = (before.service node).queryCache)
    (lookups : before.lookups <+: after.lookups) (down : after.down = before.down)
    (count : ∀ node qId, asking (after.up node) qId = asking (before.up node) qId)
    (inside : ∀ node, ∀ header ∈ after.up node, header.method = .query →
      header ∈ before.up node) : Direct after where
  clients node qId := by
    rw [clients]
    exact direct.clients node qId
  entries node qId := by
    rw [queries]
    exact direct.entries node qId
  balance node qId := by
    rw [count, down, queries]
    exact direct.balance node qId
  up node header member query :=
    (direct.up node header (inside node header member query) query).later
      (congrFun (queries node) _) lookups
  down node header member := by
    rw [down] at member
    obtain ⟨response, asked⟩ := direct.down node header member
    exact ⟨response, asked.later (congrFun (queries node) _) lookups⟩

omit [DecidableEq Node] in
theorem Direct.idle (direct : Direct before) {node : Node} {qId : QueryId}
    (fresh : (before.service node).queryCache qId = none) :
    (∀ header ∈ before.up node, header.method = .query → header.queryId ≠ qId) ∧
      ∀ header ∈ before.down node, header.queryId ≠ qId := by
  constructor
  · rintro header member query rfl
    obtain ⟨lookup, entry, -⟩ := direct.up node header member query
    rw [fresh] at entry
    cases entry
  · rintro header member rfl
    obtain ⟨-, lookup, entry, -⟩ := direct.down node header member
    rw [fresh] at entry
    cases entry

theorem Direct.lookupSent (direct : Direct before) {node : Node} {qId : QueryId}
    (fresh : (before.service node).queryCache qId = none) (name : Name) :
    Direct (((before.ask node name).setQuery node qId
      (some (.application before.lookups.length))).sendUp node (queryHeader name qId)) := by
  obtain ⟨after, isAfter⟩ : ∃ after, after = ((before.ask node name).setQuery node qId
      (some (.application before.lookups.length))).sendUp node (queryHeader name qId) := ⟨_, rfl⟩
  have queries : ∀ other id, (after.service other).queryCache id =
      if other = node ∧ id = qId then some (.application before.lookups.length)
      else (before.service other).queryCache id := by
    intro other id
    rw [isAfter, Network.sendUp_service, Network.setQuery_queryCache, Network.ask_service]
  have clients : ∀ other, (after.service other).queryClientCache =
      (before.service other).queryClientCache := by
    intro other
    rw [isAfter, Network.sendUp_service, Network.setQuery_queryClientCache, Network.ask_service]
  have lookups : after.lookups = before.lookups ++ [(node, name)] := by
    rw [isAfter]
    rfl
  have up : ∀ other, after.up other =
      if other = node then before.up node ++ [queryHeader name qId] else before.up other := by
    intro other
    rw [isAfter]
    exact Function.update_apply _ _ _ _
  have down : after.down = before.down := by
    rw [isAfter]
    rfl
  rw [← isAfter]
  have kept : ∀ other id asked, Asked before other id asked → Asked after other id asked := by
    intro other id asked known
    apply known.later
    · rw [queries, if_neg]
      rintro ⟨rfl, rfl⟩
      obtain ⟨lookup, entry, -⟩ := known
      rw [fresh] at entry
      cases entry
    · rw [lookups]
      exact List.prefix_append _ _
  refine ⟨?_, ?_, ?_, ?_, ?_⟩
  · intro other id
    rw [clients]
    exact direct.clients other id
  · intro other id
    rw [queries]
    split
    · simp
    · exact direct.entries other id
  · intro other id
    have balance := direct.balance other id
    rw [up, down, queries]
    by_cases here : other = node
    · subst here
      rw [if_pos rfl, asking_append]
      by_cases same : id = qId
      · subst same
        rw [fresh] at balance
        simp [queryHeader] at balance ⊢
        omega
      · rw [if_neg fun both => same both.2.symm, if_neg fun both => same both.2, Nat.add_zero]
        exact balance
    · rw [if_neg here, if_neg fun both => here both.1]
      exact balance
  · intro other header member query
    rw [up] at member
    split at member
    · rename_i here
      subst here
      rcases List.mem_append.mp member with old | new
      · exact kept _ _ _ (direct.up other header old query)
      · rw [List.mem_singleton.mp new]
        refine ⟨before.lookups.length, ?_, ?_⟩
        · rw [queries]
          exact if_pos ⟨rfl, rfl⟩
        · rw [lookups]
          simp [queryHeader]
    · exact kept _ _ _ (direct.up other header member query)
  · intro other header member
    rw [down] at member
    obtain ⟨response, asked⟩ := direct.down other header member
    exact ⟨response, kept _ _ _ asked⟩

theorem Direct.queryHit (direct : Direct before) {node : Node} {index : ℕ} {header : CNRSHeader}
    (found : (before.up node)[index]? = some header) (query : header.method = .query)
    (interfaces : CybertwinInterfaceList) :
    Direct ((before.takeUp node index).sendDown node
      (okHeader header.cuid header.queryId interfaces)) := by
  have up : ∀ other, ((before.takeUp node index).sendDown node
      (okHeader header.cuid header.queryId interfaces)).up other =
        if other = node then (before.up node).eraseIdx index else before.up other := by
    intro other
    exact Function.update_apply _ _ _ _
  have down : ∀ other, ((before.takeUp node index).sendDown node
      (okHeader header.cuid header.queryId interfaces)).down other =
        if other = node then before.down node ++ [okHeader header.cuid header.queryId interfaces]
        else before.down other := by
    intro other
    exact Function.update_apply _ _ _ _
  have member := List.mem_of_getElem? found
  refine ⟨direct.clients, direct.entries, ?_, ?_, ?_⟩
  · intro other id
    have balance := direct.balance other id
    rw [up, down]
    by_cases here : other = node
    · subst here
      have taken := asking_taken found id
      rw [if_pos rfl, if_pos rfl, answering_append]
      have same : (okHeader header.cuid header.queryId interfaces).queryId = header.queryId := rfl
      change _ = ((before.service other).queryCache id).isSome.toNat
      simp only [query, true_and] at taken
      rw [same]
      omega
    · rw [if_neg here, if_neg here]
      exact balance
  · intro other asked inside isQuery
    rw [up] at inside
    split at inside
    · rename_i here
      subst here
      exact direct.up other asked (List.mem_of_mem_eraseIdx inside) isQuery
    · exact direct.up other asked inside isQuery
  · intro other answered inside
    rw [down] at inside
    split at inside
    · rename_i here
      subst here
      rcases List.mem_append.mp inside with old | new
      · exact direct.down other answered old
      · rw [List.mem_singleton.mp new]
        exact ⟨Or.inl rfl, direct.up other header member query⟩
    · exact direct.down other answered inside

theorem Direct.called (direct : Direct before) {node : Node} {index : ℕ} {header : CNRSHeader}
    (found : (before.down node)[index]? = some header) (lookup : ℕ) :
    Direct ((((before.takeDown node index).learned node header).setQuery node header.queryId
      none).call lookup header.cuid (answer header)) := by
  obtain ⟨after, isAfter⟩ : ∃ after, after =
      (((before.takeDown node index).learned node header).setQuery node header.queryId
        none).call lookup header.cuid (answer header) := ⟨_, rfl⟩
  have queries : ∀ other id, (after.service other).queryCache id =
      if other = node ∧ id = header.queryId then none
      else (before.service other).queryCache id := by
    intro other id
    rw [isAfter, Network.call_service, Network.setQuery_queryCache, Network.learned_queryCache,
      Network.takeDown_service]
  have clients : ∀ other, (after.service other).queryClientCache =
      (before.service other).queryClientCache := by
    intro other
    rw [isAfter, Network.call_service, Network.setQuery_queryClientCache,
      Network.learned_queryClientCache, Network.takeDown_service]
  have lookups : after.lookups = before.lookups := by
    rw [isAfter]
    exact Network.learned_lookups _ _ _
  have up : after.up = before.up := by
    rw [isAfter]
    exact Network.learned_up _ _ _
  have down : ∀ other, after.down other =
      if other = node then (before.down node).eraseIdx index else before.down other := by
    intro other
    have taken : after.down = (before.takeDown node index).down := by
      rw [isAfter]
      exact Network.learned_down _ _ _
    rw [taken]
    exact Function.update_apply _ _ _ _
  rw [← isAfter]
  have member := List.mem_of_getElem? found
  obtain ⟨-, waiting, entry, -⟩ := direct.down node header member
  have total := direct.balance node header.queryId
  rw [entry] at total
  have taken := answering_taken found header.queryId
  rw [if_pos rfl] at taken
  simp only [Option.isSome_some, Bool.toNat_true] at total
  have noQuery : asking (before.up node) header.queryId = 0 := by omega
  have noAnswer : answering ((before.down node).eraseIdx index) header.queryId = 0 := by omega
  have kept : ∀ other id name, ¬ (other = node ∧ id = header.queryId) →
      Asked before other id name → Asked after other id name := by
    intro other id name elsewhere known
    apply known.later
    · rw [queries, if_neg elsewhere]
    · rw [lookups]
  refine ⟨?_, ?_, ?_, ?_, ?_⟩
  · intro other id
    rw [clients]
    exact direct.clients other id
  · intro other id
    rw [queries]
    split
    · simp
    · exact direct.entries other id
  · intro other id
    rw [up, down, queries]
    by_cases here : other = node
    · subst here
      rw [if_pos rfl]
      by_cases same : id = header.queryId
      · subst same
        rw [noQuery, noAnswer, if_pos ⟨rfl, rfl⟩]
        rfl
      · have others := answering_taken found id
        rw [if_neg (Ne.symm same)] at others
        rw [if_neg fun both => same both.2, ← direct.balance other id]
        omega
    · rw [if_neg here, if_neg fun both => here both.1]
      exact direct.balance other id
  · intro other asked inside isQuery
    rw [up] at inside
    apply kept _ _ _ _ (direct.up other asked inside isQuery)
    rintro ⟨rfl, same⟩
    have counted := List.countP_eq_zero.mp noQuery asked inside
    simp [isQuery, same] at counted
  · intro other answered inside
    rw [down] at inside
    split at inside
    · rename_i here
      subst here
      obtain ⟨response, known⟩ := direct.down other answered (List.mem_of_mem_eraseIdx inside)
      refine ⟨response, kept _ _ _ ?_ known⟩
      rintro ⟨-, same⟩
      have counted := List.countP_eq_zero.mp noAnswer answered inside
      simp [same] at counted
    · rename_i here
      obtain ⟨response, known⟩ := direct.down other answered inside
      exact ⟨response, kept _ _ _ (fun both => here both.1) known⟩

theorem Direct.takenUp (direct : Direct before) {node : Node} {index : ℕ} {header : CNRSHeader}
    (found : (before.up node)[index]? = some header) (other : header.method ≠ .query) :
    Direct (before.takeUp node index) := by
  have up : ∀ other, (before.takeUp node index).up other =
      if other = node then (before.up node).eraseIdx index else before.up other := by
    intro other
    exact Function.update_apply _ _ _ _
  refine direct.frame (fun _ => rfl) (fun _ => rfl) (List.prefix_refl _) rfl ?_ ?_
  · intro place id
    rw [up]
    split
    · rename_i here
      subst here
      have taken := asking_taken found id
      rw [if_neg fun both => other both.1] at taken
      exact taken
    · rfl
  · intro place asked inside query
    rw [up] at inside
    split at inside
    · rename_i here
      subst here
      exact List.mem_of_mem_eraseIdx inside
    · exact inside

theorem Direct.stored (direct : Direct before) (node : Node) (name : Name)
    (interfaces : CybertwinInterfaceList) : Direct (before.stored hierarchy node name interfaces) := by
  apply direct.frame
  · exact fun other => Network.stored_queryClientCache _ _ _ _ _ _
  · exact fun other => Network.stored_queryCache _ _ _ _ _ _
  · rw [Network.stored_lookups]
  · exact Network.stored_down _ _ _ _ _
  · intro other id
    rw [Network.stored_up]
  · intro other header member _
    rwa [Network.stored_up] at member

theorem Direct.step {action : Action Node} (direct : Direct before)
    (answered : AnsweredAtOnce hierarchy before action)
    (happened : step hierarchy before action = some after) : Direct after := by
  cases step_move happened with
  | insert node name interfaces => exact direct.stored node name interfaces
  | lookupHit node name qId interfaces hit =>
      exact direct.frame (fun _ => rfl) (fun _ => rfl) (List.prefix_append _ _) rfl
        (fun _ _ => rfl) fun _ _ member _ => member
  | lookupSent node name qId superior miss fresh above => exact direct.lookupSent fresh name
  | lookupFailed node name qId miss fresh top => exact absurd miss (answered top)
  | reported node superior name interfaces rest pending above fits =>
      have up : ∀ other, ((before.setReports node rest).sendUp node
          (insertHeader name interfaces)).up other =
            if other = node then before.up node ++ [insertHeader name interfaces]
            else before.up other := by
        intro other
        exact Function.update_apply _ _ _ _
      refine direct.frame (fun _ => rfl) (fun _ => rfl) (List.prefix_refl _) rfl ?_ ?_
      · intro other id
        rw [up]
        split
        · rename_i here
          subst here
          have notQuery : (insertHeader name interfaces).method ≠ .query := by
            simp [insertHeader, CNRSHeader.setInterfaceList]
          rw [asking_append, if_neg fun both => notQuery both.1, Nat.add_zero]
        · rfl
      · intro other header member query
        rw [up] at member
        split at member
        · rename_i here
          subst here
          rcases List.mem_append.mp member with old | new
          · exact old
          · rw [List.mem_singleton.mp new] at query
            cases query
        · exact member
  | unreported node name interfaces rest pending top =>
      exact direct.frame (fun _ => rfl) (fun _ => rfl) (List.prefix_refl _) rfl (fun _ _ => rfl)
        fun _ _ member _ => member
  | queryHit node superior index header interfaces above found query hit fits =>
      exact direct.queryHit found query interfaces
  | queryForwarded node superior further index header above found query miss beyond =>
      exact absurd miss (answered superior header above found query)
  | insertArrived node superior index header above found insert =>
      have taken := direct.takenUp found (by rw [insert]; decide)
      exact taken.stored superior header.cuid header.interfaceList
  | otherUp node superior index header above found other => exact direct.takenUp found other.1
  | relayed node peer index header found response client fits =>
      rw [direct.clients] at client
      cases client
  | called node index header lookup found response noClient entry => exact direct.called found lookup
  | unknown node index header found response noClient entry =>
      exact absurd rfl ((direct.idle entry).2 header (List.mem_of_getElem? found))
  | otherDown node index header found other =>
      exact absurd (direct.down node header (List.mem_of_getElem? found)).1 other
  | lostUp | lostDown => exact answered.elim

theorem Direct.reportsFirst {action : Action Node} (direct : Direct before)
    (answered : AnsweredAtOnce hierarchy before action)
    (happened : NameResolution.step hierarchy before action = some after) :
    ReportsFirst before after := by
  constructor
  · intro node qId entry waits gone
    have stays : (after.service node).queryCache = (before.service node).queryCache →
        ∃ lookup name interfaces, entry = .application lookup ∧
          before.lookups[lookup]? = some (node, name) ∧
          after.called = before.called ++ [(⟨lookup, name, interfaces⟩ : Call)] := by
      intro same
      rw [same] at gone
      exact absurd waits gone
    cases step_move happened with
    | insert place name interfaces => exact stays (Network.stored_queryCache _ _ _ _ _ _)
    | insertArrived place superior index header above found insert =>
        exact stays (Network.stored_queryCache _ _ _ _ _ _)
    | lookupSent place name id superior miss fresh above =>
        rw [Network.sendUp_service, Network.setQuery_queryCache, Network.ask_service] at gone
        split at gone
        · rename_i here
          rw [here.1, here.2, fresh] at waits
          cases waits
        · exact absurd waits gone
    | lookupFailed place name id miss fresh top => exact absurd miss (answered top)
    | queryForwarded place superior further index header above found query miss beyond =>
        exact absurd miss (answered superior header above found query)
    | relayed place peer index header found response client fits =>
        rw [direct.clients] at client
        cases client
    | called place index header lookup found response noClient known =>
        rw [Network.call_service, Network.setQuery_queryCache, Network.learned_queryCache,
          Network.takeDown_service] at gone
        split at gone
        · rename_i here
          obtain ⟨rfl, rfl⟩ := here
          obtain ⟨-, asked, pending, name⟩ :=
            direct.down node header (List.mem_of_getElem? found)
          obtain rfl := Option.some.inj (waits.symm.trans pending)
          obtain rfl := Callback.application.inj (Option.some.inj (known.symm.trans pending))
          refine ⟨lookup, header.cuid, answer header, rfl, name, ?_⟩
          simp [Network.call, Network.setQuery, Network.setService, Network.takeDown]
        · exact absurd waits gone
    | unknown place index header found response noClient known =>
        exact stays (Network.learned_queryCache _ _ _ _)
    | lookupHit | reported | unreported | queryHit | otherUp | otherDown => exact stays rfl
    | lostUp | lostDown => exact answered.elim
  · intro node qId peer client
    rw [direct.clients] at client
    cases client

/-- As long as every query is answered where it arrives, the tables hold exactly what is on its
way, and every entry goes with its own report. -/
theorem tables_kept (hierarchy : Hierarchy Node) {actions : List (Action Node)}
    (guarded : Guarded (NameResolution.step hierarchy) (AnsweredAtOnce hierarchy) {} actions) :
    Throughout (NameResolution.step hierarchy) Emptied {} actions ∧
      Guarded (NameResolution.step hierarchy) (KeepsEntries hierarchy) {} actions := by
  have keeps : ∀ (net : Network Node) action next, Direct net → AnsweredAtOnce hierarchy net action →
      NameResolution.step hierarchy net action = some next → Direct next :=
    fun _ _ _ direct answered happened => direct.step answered happened
  constructor
  · intro first second middle split ran
    exact (throughout_of_guarded keeps Direct.empty guarded first second middle split ran).emptied
  · refine guarded_of_invariant keeps ?_ Direct.empty guarded
    intro net action direct answered next happened
    exact direct.reportsFirst answered happened

theorem tables_kept_pair :
    Throughout (NameResolution.step pair) Emptied {}
        [.insert false 7 [(1, 80)], .lookup true 7 1, .deliverUp true 0, .deliverDown true 0] ∧
      Guarded (NameResolution.step pair) (KeepsEntries pair) {}
        [.insert false 7 [(1, 80)], .lookup true 7 1, .deliverUp true 0, .deliverDown true 0] := by
  refine tables_kept pair ⟨trivial, fun inserted happened => ?_⟩
  obtain rfl := Option.some.inj happened
  have below : pair.superior true ≠ none := by decide
  refine ⟨fun top => absurd top below, fun asking happened => ?_⟩
  obtain rfl := Option.some.inj happened
  refine ⟨fun superior header above found query miss => ?_, fun answering happened => ?_⟩
  · obtain rfl := Option.some.inj above
    obtain rfl := Option.some.inj found
    cases miss
  · exact ⟨trivial, fun _ _ => trivial⟩

-- The leaf asks for a name of the root; the query and the answer go through the middle.
def forwardedRun : List (Action Tier) :=
  [.insert .root 7 [(1, 80)], .lookup .leaf 7 1, .deliverUp .leaf 0, .deliverUp .middle 0,
    .deliverDown .middle 0, .deliverDown .leaf 0]

/-- A node that forwards a query stores a callback under its id, and nothing ever takes it out. -/
theorem tables_leak_tiers :
    tiers.Tree ∧ ∃ net, run (NameResolution.step tiers) {} forwardedRun = some net ∧ Quiet net ∧
      net.called = [⟨0, 7, [(1, 80)]⟩] ∧
      (net.service .middle).queryCache 1 = some .queryResponse ∧
      ¬ Throughout (NameResolution.step tiers) Emptied {} forwardedRun := by
  have quiet : ∀ net, run (NameResolution.step tiers) {} forwardedRun = some net → Quiet net := by
    intro net ran
    obtain rfl := Option.some.inj ran
    exact ⟨fun node => by cases node <;> rfl, fun node => by cases node <;> rfl,
      fun node => by cases node <;> rfl⟩
  refine ⟨tiers_tree, _, rfl, quiet _ rfl, rfl, rfl, fun holds => ?_⟩
  have empty := (holds _ [] _ (List.append_nil _).symm rfl).queries (quiet _ rfl) .middle 1
  cases empty

end FISim.NameResolution
