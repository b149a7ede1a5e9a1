import FISim.NameResolution.Network

/-!
What the steps of the network do, told move by move, and which of them happen.
-/

namespace FISim.NameResolution

open Transition

variable {Node : Type} [DecidableEq Node]

inductive Move (hierarchy : Hierarchy Node) (before : Network Node) :
    Action Node → Network Node → Prop
  | insert (node : Node) (name : Name) (interfaces : CybertwinInterfaceList) :
      Move hierarchy before (.insert node name interfaces)
        (before.stored hierarchy node name interfaces)
  | lookupHit (node : Node) (name : Name) (qId : QueryId) (interfaces : CybertwinInterfaceList)
      (hit : (before.service node).itemCache name = some interfaces) :
      Move hierarchy before (.lookup node name qId)
        ((before.ask node name).call before.lookups.length name interfaces)
  | lookupSent (node : Node) (name : Name) (qId : QueryId) (superior : Node)
      (miss : (before.service node).itemCache name = none)
      (fresh : (before.service node).queryCache qId = none)
      (above : hierarchy.superior node = some superior) :
      Move hierarchy before (.lookup node name qId)
        (((before.ask node name).setQuery node qId
          (some (.application before.lookups.length))).sendUp node (queryHeader name qId))
  | lookupFailed (node : Node) (name : Name) (qId : QueryId)
      (miss : (before.service node).itemCache name = none)
      (fresh : (before.service node).queryCache qId = none)
      (top : hierarchy.superior node = none) :
      Move hierarchy before (.lookup node name qId)
        (((before.ask node name).setQuery node qId
          (some (.application before.lookups.length))).call before.lookups.length name [])
  | reported (node superior : Node) (name : Name) (interfaces : CybertwinInterfaceList)
      (rest : List (Name × CybertwinInterfaceList))
      (pending : before.reports node = (name, interfaces) :: rest)
      (above : hierarchy.superior node = some superior) (fits : interfaces.length ≤ 255) :
      Move hierarchy before (.report node)
        ((before.setReports node rest).sendUp node (insertHeader name interfaces))
  | unreported (node : Node) (name : Name) (interfaces : CybertwinInterfaceList)
      (rest : List (Name × CybertwinInterfaceList))
      (pending : before.reports node = (name, interfaces) :: rest)
      (top : hierarchy.superior node = none) :
      Move hierarchy before (.report node) (before.setReports node rest)
  | queryHit (node superior : Node) (index : ℕ) (header : CNRSHeader)
      (interfaces : CybertwinInterfaceList) (above : hierarchy.superior node = some superior)
      (found : (before.up node)[index]? = some header) (query : header.method = .query)
      (hit : (before.service superior).itemCache header.cuid = some interfaces)
      (fits : interfaces.length ≤ 255) :
      Move hierarchy before (.deliverUp node index)
        ((before.takeUp node index).sendDown node
          (okHeader header.cuid header.queryId interfaces))
  | queryForwarded (node superior further : Node) (index : ℕ) (header : CNRSHeader)
      (above : hierarchy.superior node = some superior)
      (found : (before.up node)[index]? = some header) (query : header.method = .query)
      (miss : (before.service superior).itemCache header.cuid = none)
      (beyond : hierarchy.superior superior = some further) :
      Move hierarchy before (.deliverUp node index)
        (((before.takeUp node index).recorded superior header.queryId node).sendUp superior
          (queryHeader header.cuid header.queryId))
  | insertArrived (node superior : Node) (index : ℕ) (header : CNRSHeader)
      (above : hierarchy.superior node = some superior)
      (found : (before.up node)[index]? = some header) (insert : header.method = .insert) :
      Move hierarchy before (.deliverUp node index)
        ((before.takeUp node index).stored hierarchy superior header.cuid header.interfaceList)
  | otherUp (node superior : Node) (index : ℕ) (header : CNRSHeader)
      (above : hierarchy.superior node = some superior)
      (found : (before.up node)[index]? = some header)
      (other : header.method ≠ .query ∧ header.method ≠ .insert) :
      Move hierarchy before (.deliverUp node index) (before.takeUp node index)
  | relayed (node peer : Node) (index : ℕ) (header : CNRSHeader)
      (found : (before.down node)[index]? = some header) (response : IsResponse header)
      (client : (before.service node).queryClientCache header.queryId = some peer)
      (fits : (answer header).length ≤ 255) :
      Move hierarchy before (.deliverDown node index)
        ((((before.takeDown node index).learned node header).setClient node header.queryId
          none).sendDown peer (responseHeader header.cuid header.queryId (answer header)))
  | called (node : Node) (index : ℕ) (header : CNRSHeader) (lookup : ℕ)
      (found : (before.down node)[index]? = some header) (response : IsResponse header)
      (noClient : (before.service node).queryClientCache header.queryId = none)
      (entry : (before.service node).queryCache header.queryId = some (.application lookup)) :
      Move hierarchy before (.deliverDown node index)
        ((((before.takeDown node index).learned node header).setQuery node header.queryId
          none).call lookup header.cuid (answer header))
  | unknown (node : Node) (index : ℕ) (header : CNRSHeader)
      (found : (before.down node)[index]? = some header) (response : IsResponse header)
      (noClient : (before.service node).queryClientCache header.queryId = none)
      (entry : (before.service node).queryCache header.queryId = none) :
      Move hierarchy before (.deliverDown node index)
        ((before.takeDown node index).learned node header)
  | otherDown (node : Node) (index : ℕ) (header : CNRSHeader)
      (found : (before.down node)[index]? = some header) (other : ¬ IsResponse header) :
      Move hierarchy before (.deliverDown node index) (before.takeDown node index)
  | lostUp (node : Node) (index : ℕ) (header : CNRSHeader)
      (found : (before.up node)[index]? = some header) :
      Move hierarchy before (.loseUp node index) (before.takeUp node index)
  | lostDown (node : Node) (index : ℕ) (header : CNRSHeader)
      (found : (before.down node)[index]? = some header) :
      Move hierarchy before (.loseDown node index) (before.takeDown node index)

theorem taken_perm {queue : List CNRSHeader} {index : ℕ} {header : CNRSHeader}
    (found : queue[index]? = some header) : (header :: queue.eraseIdx index).Perm queue := by
  obtain ⟨bound, same⟩ := List.getElem?_eq_some_iff.mp found
  rw [← same]
  exact List.getElem_cons_eraseIdx_perm bound

variable {hierarchy : Hierarchy Node} {before after : Network Node}

theorem lookup_move {node : Node} {name : Name} {qId : QueryId}
    (happened : step hierarchy before (.lookup node name qId) = some after) :
    Move hierarchy before (.lookup node name qId) after := by
  simp only [step, Service.getCybertwinInterfaceByName] at happened
  cases held : (before.service node).itemCache name with
  | some interfaces =>
      simp only [held, Option.bind_eq_bind, Option.bind_some, Option.pure_def, Callback.invoke,
        Network.perform_one] at happened
      rw [show before.service node = (before.ask node name).service node from rfl,
        Network.setService_self] at happened
      obtain rfl := Option.some.inj happened
      exact Move.lookupHit node name qId interfaces held
  | none =>
      simp only [held] at happened
      split at happened
      · rename_i fresh
        simp only [Option.bind_eq_bind, Option.pure_def, Service.querySuperior] at happened
        cases above : hierarchy.superior node with
        | some superior =>
            simp only [above, Option.isSome_some, if_true, Option.bind_some, Network.perform_one,
              Network.emit] at happened
            rw [show ({ method := .query, cuid := name, queryId := qId } : CNRSHeader) =
              queryHeader name qId from rfl, transmit_queryHeader] at happened
            obtain rfl := Option.some.inj happened
            exact Move.lookupSent node name qId superior held fresh above
        | none =>
            simp only [above, Option.isSome_none, Bool.false_eq_true, if_false,
              Service.querySuperiorFail, Function.update_self, Callback.invoke,
              Option.bind_some, Network.perform_one, Network.emit] at happened
            obtain rfl := Option.some.inj happened
            exact Move.lookupFailed node name qId held fresh above
      · cases happened

theorem report_move {node : Node}
    (happened : step hierarchy before (.report node) = some after) :
    Move hierarchy before (.report node) after := by
  simp only [step] at happened
  split at happened
  · cases happened
  · rename_i name interfaces rest pending
    rw [Service.reportName2Superior] at happened
    cases above : hierarchy.superior node with
    | some superior =>
        simp only [above, Option.isSome_some, if_true, Network.perform_one,
          Network.emit] at happened
        rw [show CNRSHeader.setInterfaceList { method := .insert, cuid := name } interfaces =
          insertHeader name interfaces from rfl, transmit_insertHeader] at happened
        split at happened
        · rename_i fits
          rw [show before.service node = (before.setReports node rest).service node from rfl,
            Network.setService_self] at happened
          obtain rfl := Option.some.inj happened
          exact Move.reported node superior name interfaces rest pending above fits
        · cases happened
    | none =>
        simp only [above, Option.isSome_none, Bool.false_eq_true, if_false,
          Network.perform_nothing] at happened
        rw [show before.service node = (before.setReports node rest).service node from rfl,
          Network.setService_self] at happened
        obtain rfl := Option.some.inj happened
        exact Move.unreported node name interfaces rest pending above

theorem perform_query (net : Network Node) (node peer : Node) (header : CNRSHeader)
    (further : Option Node) :
    ((net.service node).processQuery further.isSome header peer).bind (net.perform node) =
      match (net.service node).itemCache header.cuid with
      | some interfaces =>
          if interfaces.length ≤ 255 then
            some (net.sendDown peer (okHeader header.cuid header.queryId interfaces))
          else none
      | none => further.map fun _ => (net.recorded node header.queryId peer).sendUp node
          (queryHeader header.cuid header.queryId) := by
  have recorded : net.setService node { net.service node with
      queryClientCache :=
        Function.update (net.service node).queryClientCache header.queryId (some peer)
      queryCache :=
        Function.update (net.service node).queryCache header.queryId (some .queryResponse) } =
      net.recorded node header.queryId peer := by
    simp [Network.recorded, Network.setClient, Network.setQuery, Network.setService]
  cases held : (net.service node).itemCache header.cuid with
  | some interfaces =>
      simp only [Service.processQuery, held, Service.informCNRSResult, Option.getD_some,
        Option.bind_some, Network.perform_one, Network.emit]
      rw [show CNRSHeader.setInterfaceList
          { method := .queryOk, cuid := header.cuid, queryId := header.queryId } interfaces =
        okHeader header.cuid header.queryId interfaces from rfl, transmit_okHeader,
        Network.setService_self]
      split <;> rfl
  | none =>
      cases further with
      | some further =>
          simp only [Service.processQuery, held, Service.querySuperior, Option.isSome_some,
            if_true, Option.bind_eq_bind, Option.bind_some]
          rw [if_neg (by decide), Option.pure_def, Option.bind_some, Network.perform_one, recorded,
            Network.emit, show ({ method := .query, cuid := header.cuid, queryId := header.queryId } :
              CNRSHeader) = queryHeader header.cuid header.queryId from rfl, transmit_queryHeader]
          rfl
      | none =>
          -- `QuerySuperiorFail` finds the callback that `ProcessQuery` has just stored
          simp [Service.processQuery, held, Service.querySuperior, Service.querySuperiorFail,
            Callback.invoke]

theorem deliverUp_move {node : Node} {index : ℕ}
    (happened : step hierarchy before (.deliverUp node index) = some after) :
    Move hierarchy before (.deliverUp node index) after := by
  obtain ⟨superior, above, happened⟩ := Option.bind_eq_some_iff.mp happened
  obtain ⟨header, found, happened⟩ := Option.bind_eq_some_iff.mp happened
  unfold Service.serviceRecvHandler at happened
  have service : (before.takeUp node index).service superior = before.service superior := rfl
  cases method : header.method with
  | query =>
      simp only [method] at happened
      rw [← service] at happened
      have performed := (perform_query (before.takeUp node index) superior node header
        (hierarchy.superior superior)).symm.trans happened
      rw [service] at performed
      split at performed
      · rename_i interfaces held
        split at performed
        · rename_i fits
          obtain rfl := Option.some.inj performed
          exact Move.queryHit node superior index header interfaces above found method held fits
        · cases performed
      · rename_i held
        obtain ⟨further, beyond, rfl⟩ := Option.map_eq_some_iff.mp performed
        exact Move.queryForwarded node superior further index header above found method held beyond
  | insert =>
      simp only [method, Service.processInsert, Option.bind_eq_bind, Option.bind_some] at happened
      rw [← service, Network.perform_insert] at happened
      obtain rfl := Option.some.inj happened
      exact Move.insertArrived node superior index header above found method
  | queryOk | queryFail | insertOk | insertFail | unknown =>
      simp only [method, Option.bind_eq_bind, Option.bind_some,
        Network.perform_nothing] at happened
      rw [← service, Network.setService_self] at happened
      obtain rfl := Option.some.inj happened
      exact Move.otherUp node superior index header above found (by simp [method])

theorem perform_response (net : Network Node) (node : Node) (header : CNRSHeader) :
    ((net.service node).queryResponseHandler (header.method = .queryOk) header).bind
        (net.perform node) =
      match (net.service node).queryClientCache header.queryId,
        (net.service node).queryCache header.queryId with
      | some peer, _ =>
          if (answer header).length ≤ 255 then
            some (((net.learned node header).setClient node header.queryId none).sendDown peer
              (responseHeader header.cuid header.queryId (answer header)))
          else none
      | none, some (.application lookup) =>
          some (((net.learned node header).setQuery node header.queryId none).call lookup
            header.cuid (answer header))
      | none, some .queryResponse => none
      | none, none => some (net.learned node header) := by
  let service : Service Node :=
    if header.method = .queryOk then { net.service node with
      itemCache := Function.update (net.service node).itemCache header.cuid
        (some header.interfaceList) }
    else net.service node
  have learned : net.learned node header = net.setService node service := by
    unfold Network.learned
    by_cases ok : header.method = .queryOk
    · simp only [service, if_pos ok]
      rfl
    · simp only [service, if_neg ok]
      exact (Network.setService_self _ _).symm
  have sameCache : service.queryCache = (net.service node).queryCache := by
    simp only [service]
    split <;> rfl
  have sameClients : service.queryClientCache = (net.service node).queryClientCache := by
    simp only [service]
    split <;> rfl
  have handled : (net.service node).queryResponseHandler (header.method = .queryOk) header =
      (service.queryClientCache header.queryId).elim
        ((service.queryCache header.queryId).elim (some (service, [])) fun callback =>
          (callback.invoke header.cuid (answer header)).map fun called =>
            ({ service with
              queryCache := Function.update service.queryCache header.queryId none }, called))
        fun peer =>
          some (service.queryResponse peer header.cuid header.queryId (answer header)) := by
    by_cases ok : header.method = .queryOk
    · simp only [Service.queryResponseHandler, service, answer, if_pos ok, decide_eq_true ok,
        if_true]
      cases (net.service node).queryClientCache header.queryId with
      | some peer => rfl
      | none =>
          cases (net.service node).queryCache header.queryId with
          | none => rfl
          | some callback => cases callback <;> rfl
    · simp only [Service.queryResponseHandler, service, answer, if_neg ok, decide_eq_false ok,
        Bool.false_eq_true, if_false]
      cases (net.service node).queryClientCache header.queryId with
      | some peer => rfl
      | none =>
          cases (net.service node).queryCache header.queryId with
          | none => rfl
          | some callback => cases callback <;> rfl
  have here : (net.setService node service).service node = service := by
    simp [Network.setService]
  rw [handled, learned, Network.setClient, Network.setQuery, here, Network.setService_setService,
    Network.setService_setService, sameCache, sameClients]
  cases client : (net.service node).queryClientCache header.queryId with
  | some peer =>
      simp only [Option.elim, Option.bind_some, Service.queryResponse, Network.perform_one,
        Network.emit]
      rw [show (if (answer header).length = 0 then
          ({ method := .queryFail, cuid := header.cuid, queryId := header.queryId } : CNRSHeader)
        else CNRSHeader.setInterfaceList
          { method := .queryOk, cuid := header.cuid, queryId := header.queryId } (answer header)) =
        responseHeader header.cuid header.queryId (answer header) from rfl,
        transmit_responseHeader, sameClients]
      split <;> rfl
  | none =>
      cases entry : (net.service node).queryCache header.queryId with
      | none => rfl
      | some callback =>
          cases callback with
          | application lookup =>
              simp only [Option.elim, Callback.invoke, Option.map_some, Option.bind_some,
                Network.perform_one, Network.emit, sameClients]
          | queryResponse => rfl

theorem response_move {node : Node} {index : ℕ} {header : CNRSHeader}
    (found : (before.down node)[index]? = some header) (response : IsResponse header)
    (happened : ((before.service node).queryResponseHandler (header.method = .queryOk) header).bind
      ((before.takeDown node index).perform node) = some after) :
    Move hierarchy before (.deliverDown node index) after := by
  rw [show before.service node = (before.takeDown node index).service node from rfl,
    perform_response, Network.takeDown_service] at happened
  cases client : (before.service node).queryClientCache header.queryId with
  | some peer =>
      simp only [client] at happened
      split at happened
      · rename_i fits
        obtain rfl := Option.some.inj happened
        exact Move.relayed node peer index header found response client fits
      · cases happened
  | none =>
      cases entry : (before.service node).queryCache header.queryId with
      | none =>
          simp only [client, entry] at happened
          obtain rfl := Option.some.inj happened
          exact Move.unknown node index header found response client entry
      | some callback =>
          cases callback with
          | application lookup =>
              simp only [client, entry] at happened
              obtain rfl := Option.some.inj happened
              exact Move.called node index header lookup found response client entry
          | queryResponse =>
              simp only [client, entry] at happened
              cases happened

theorem deliverDown_move {node : Node} {index : ℕ}
    (happened : step hierarchy before (.deliverDown node index) = some after) :
    Move hierarchy before (.deliverDown node index) after := by
  obtain ⟨header, found, happened⟩ := Option.bind_eq_some_iff.mp happened
  unfold Service.clientRecvHandler at happened
  cases method : header.method with
  | queryOk =>
      simp only [method] at happened
      exact response_move found (Or.inl method) (by simpa [method] using happened)
  | queryFail =>
      simp only [method] at happened
      exact response_move found (Or.inr method) (by simpa [method] using happened)
  | query | insert | insertOk | insertFail | unknown =>
      simp only [method, Option.bind_eq_bind, Option.bind_some,
        Network.perform_nothing] at happened
      rw [show before.service node = (before.takeDown node index).service node from rfl,
        Network.setService_self] at happened
      obtain rfl := Option.some.inj happened
      exact Move.otherDown node index header found (by simp [IsResponse, method])

theorem step_move {action : Action Node} (happened : step hierarchy before action = some after) :
    Move hierarchy before action after := by
  cases action with
  | insert node name interfaces =>
      simp only [step, Network.perform_insert] at happened
      obtain rfl := Option.some.inj happened
      exact Move.insert node name interfaces
  | lookup node name qId => exact lookup_move happened
  | report node => exact report_move happened
  | deliverUp node index => exact deliverUp_move happened
  | deliverDown node index => exact deliverDown_move happened
  | loseUp node index =>
      simp only [step] at happened
      split at happened
      · rename_i bound
        obtain rfl := Option.some.inj happened
        exact Move.lostUp node index _ (List.getElem?_eq_getElem bound)
      · cases happened
  | loseDown node index =>
      simp only [step] at happened
      split at happened
      · rename_i bound
        obtain rfl := Option.some.inj happened
        exact Move.lostDown node index _ (List.getElem?_eq_getElem bound)
      · cases happened

/-- The action is at hand: the id that is drawn for a lookup is a new one, and what is to be
reported, delivered or lost is there. -/
def Due (hierarchy : Hierarchy Node) (before : Network Node) : Action Node → Prop
  | .insert _ _ _ => True
  | .lookup node name qId => (before.service node).itemCache name = none →
      (before.service node).queryCache qId = none
  | .report node => before.reports node ≠ []
  | .deliverUp node index => hierarchy.superior node ≠ none ∧ index < (before.up node).length
  | .deliverDown node index | .loseDown node index => index < (before.down node).length
  | .loseUp node index => index < (before.up node).length

/-- The condition under which the program survives an action: every list that it sends fits a
header, a query that misses can be forwarded, and a response that nobody below waits for does not
come upon what is left of a forwarded query. -/
def Survives (hierarchy : Hierarchy Node) (before : Network Node) : Action Node → Prop
  | .report node => hierarchy.superior node ≠ none →
      ∀ report ∈ (before.reports node).head?, report.2.length ≤ 255
  | .deliverUp node index => ∀ superior header, hierarchy.superior node = some superior →
      (before.up node)[index]? = some header → header.method = .query →
        (∀ interfaces, (before.service superior).itemCache header.cuid = some interfaces →
          interfaces.length ≤ 255) ∧
        ((before.service superior).itemCache header.cuid = none →
          hierarchy.superior superior ≠ none)
  | .deliverDown node index => ∀ header, (before.down node)[index]? = some header →
      IsResponse header →
        ((before.service node).queryClientCache header.queryId ≠ none →
          (answer header).length ≤ 255) ∧
        ((before.service node).queryClientCache header.queryId = none →
          (before.service node).queryCache header.queryId ≠ some .queryResponse)
  | .insert _ _ _ | .lookup _ _ _ | .loseUp _ _ | .loseDown _ _ => True

theorem lookup_isSome_iff {node : Node} {name : Name} {qId : QueryId} :
    (step hierarchy before (.lookup node name qId)).isSome ↔
      Due hierarchy before (.lookup node name qId) := by
  simp only [step, Due, Service.getCybertwinInterfaceByName]
  cases (before.service node).itemCache name with
  | some interfaces => simp [Callback.invoke, Network.perform_one, Network.emit]
  | none =>
      by_cases fresh : (before.service node).queryCache qId = none
      · cases hierarchy.superior node with
        | some superior =>
            have sent := transmit_queryHeader name qId
            rw [queryHeader] at sent
            simp [fresh, Service.querySuperior, Network.perform_one, Network.emit, sent]
        | none =>
            simp [fresh, Service.querySuperior, Service.querySuperiorFail, Callback.invoke,
              Network.perform_one, Network.emit]
      · simp [fresh]

theorem report_isSome_iff {node : Node} :
    (step hierarchy before (.report node)).isSome ↔
      Due hierarchy before (.report node) ∧ Survives hierarchy before (.report node) := by
  simp only [step, Due, Survives]
  cases before.reports node with
  | nil => simp
  | cons report rest =>
      obtain ⟨name, interfaces⟩ := report
      have sent := transmit_insertHeader name interfaces
      rw [insertHeader] at sent
      cases hierarchy.superior node with
      | none => simp [Service.reportName2Superior, Network.perform_nothing]
      | some superior =>
          by_cases fits : interfaces.length ≤ 255
          · simp [Service.reportName2Superior, Network.perform_one, Network.emit, sent, fits]
          · simp [Service.reportName2Superior, Network.perform_one, Network.emit, sent, fits]

theorem deliverUp_isSome_iff {node : Node} {index : ℕ} :
    (step hierarchy before (.deliverUp node index)).isSome ↔
      Due hierarchy before (.deliverUp node index) ∧
        Survives hierarchy before (.deliverUp node index) := by
  cases above : hierarchy.superior node with
  | none => simp [step, Due, above]
  | some superior =>
      cases found : (before.up node)[index]? with
      | none =>
          have beyond := List.getElem?_eq_none_iff.mp found
          simp [step, Due, above, beyond]
      | some header =>
          have bound := (List.getElem?_eq_some_iff.mp found).choose
          have performed := perform_query (before.takeUp node index) superior node header
            (hierarchy.superior superior)
          have service : (before.takeUp node index).service superior = before.service superior :=
            rfl
          rw [service] at performed
          simp only [step, Due, Survives, above, found, bound, Option.bind_eq_bind,
            Option.bind_some, Service.serviceRecvHandler]
          cases method : header.method with
          | query =>
              rw [performed]
              cases held : (before.service superior).itemCache header.cuid with
              | some interfaces =>
                  by_cases fits : interfaces.length ≤ 255 <;> simp [held, fits, method]
              | none => cases beyond : hierarchy.superior superior <;> simp [held, beyond, method]
          | insert =>
              rw [Option.bind_some, Service.processInsert, ← service, Network.perform_insert]
              simp [method]
          | queryOk | queryFail | insertOk | insertFail | unknown =>
              simp [method, Network.perform_nothing]

theorem deliverDown_isSome_iff {node : Node} {index : ℕ} :
    (step hierarchy before (.deliverDown node index)).isSome ↔
      Due hierarchy before (.deliverDown node index) ∧
        Survives hierarchy before (.deliverDown node index) := by
  cases found : (before.down node)[index]? with
  | none =>
      have beyond := List.getElem?_eq_none_iff.mp found
      simp [step, Due, beyond]
  | some header =>
      have bound := (List.getElem?_eq_some_iff.mp found).choose
      have performed := perform_response (before.takeDown node index) node header
      have handled : ((((before.takeDown node index).service node).queryResponseHandler
          (header.method = .queryOk) header).bind
            ((before.takeDown node index).perform node)).isSome ↔
          ((before.service node).queryClientCache header.queryId ≠ none →
            (answer header).length ≤ 255) ∧
          ((before.service node).queryClientCache header.queryId = none →
            (before.service node).queryCache header.queryId ≠ some .queryResponse) := by
        rw [performed, Network.takeDown_service]
        cases (before.service node).queryClientCache header.queryId with
        | some peer => by_cases fits : (answer header).length ≤ 255 <;> simp [fits]
        | none =>
            cases (before.service node).queryCache header.queryId with
            | none => simp
            | some callback => cases callback <;> simp
      simp only [step, Due, Survives, found, bound, Option.bind_eq_bind, Option.bind_some,
        Service.clientRecvHandler]
      cases method : header.method with
      | queryOk | queryFail => simpa [method, IsResponse] using handled
      | query | insert | insertOk | insertFail | unknown =>
          simp [method, IsResponse, Network.perform_nothing]

theorem step_isSome_iff {action : Action Node} :
    (step hierarchy before action).isSome ↔
      Due hierarchy before action ∧ Survives hierarchy before action := by
  cases action with
  | insert node name interfaces =>
      simp [step, Network.perform_insert, Due, Survives]
  | lookup node name qId => simpa [Survives] using lookup_isSome_iff
  | report node => exact report_isSome_iff
  | deliverUp node index => exact deliverUp_isSome_iff
  | deliverDown node index => exact deliverDown_isSome_iff
  | loseUp node index => simp only [step, Due, Survives]; split <;> simp_all
  | loseDown node index => simp only [step, Due, Survives]; split <;> simp_all

theorem survives_iff {action : Action Node} :
    Survives hierarchy before action ↔
      (Due hierarchy before action → (step hierarchy before action).isSome) := by
  constructor
  · exact fun survives due => step_isSome_iff.mpr ⟨due, survives⟩
  · intro happens
    cases action with
    | insert | lookup | loseUp | loseDown => trivial
    | report node =>
        intro above report first
        have due : before.reports node ≠ [] := by
          intro empty
          simp [empty] at first
        exact (step_isSome_iff.mp (happens due)).2 above report first
    | deliverUp node index =>
        intro superior header above found
        have due : Due hierarchy before (.deliverUp node index) :=
          ⟨by simp [above], (List.getElem?_eq_some_iff.mp found).choose⟩
        exact (step_isSome_iff.mp (happens due)).2 superior header above found
    | deliverDown node index =>
        intro header found
        have due : Due hierarchy before (.deliverDown node index) :=
          (List.getElem?_eq_some_iff.mp found).choose
        exact (step_isSome_iff.mp (happens due)).2 header found

/-- No action of the run aborts the program where it is at hand. -/
def Survived (hierarchy : Hierarchy Node) (actions : List (Action Node)) : Prop :=
  Guarded (step hierarchy) (fun net action => Due hierarchy net action →
    (step hierarchy net action).isSome) {} actions

theorem survived_iff {actions : List (Action Node)} :
    Survived hierarchy actions ↔ Guarded (step hierarchy) (Survives hierarchy) {} actions := by
  have same : (fun net action => Due hierarchy net action → (step hierarchy net action).isSome) =
      Survives hierarchy := by
    funext net action
    exact propext survives_iff.symm
  rw [Survived, same]

theorem forwarded_up {node superior : Node} {index : ℕ} {qId : QueryId} {message : CNRSHeader}
    (apart : node ≠ superior) (other : Node) :
    (((before.takeUp node index).recorded superior qId node).sendUp superior message).up other =
      if other = node then (before.up node).eraseIdx index
      else if other = superior then before.up superior ++ [message] else before.up other := by
  simp only [Network.sendUp, Network.recorded, Network.setQuery, Network.setClient,
    Network.setService, Network.takeUp]
  by_cases sender : other = node
  · subst sender
    simp [apart]
  · by_cases receiver : other = superior
    · subst receiver
      simp [sender]
    · simp [sender, receiver]

theorem forwarded_clients {node superior : Node} {index : ℕ} {qId : QueryId}
    {message : CNRSHeader} (other : Node) (id : QueryId) :
    ((((before.takeUp node index).recorded superior qId node).sendUp superior message).service
      other).queryClientCache id = if other = superior ∧ id = qId then some node
        else (before.service other).queryClientCache id := by
  rw [Network.sendUp_service, Network.recorded_queryClientCache]
  rfl

theorem forwarded_queries {node superior : Node} {index : ℕ} {qId : QueryId}
    {message : CNRSHeader} (other : Node) (id : QueryId) :
    ((((before.takeUp node index).recorded superior qId node).sendUp superior message).service
      other).queryCache id = if other = superior ∧ id = qId then some .queryResponse
        else (before.service other).queryCache id := by
  rw [Network.sendUp_service, Network.recorded_queryCache]
  rfl

theorem relayed_down {node peer : Node} {index : ℕ} {header reply : CNRSHeader}
    (apart : peer ≠ node) (other : Node) :
    ((((before.takeDown node index).learned node header).setClient node header.queryId
      none).sendDown peer reply).down other =
        if other = node then (before.down node).eraseIdx index
        else if other = peer then before.down peer ++ [reply] else before.down other := by
  simp only [Network.sendDown, Network.setClient, Network.setService, Network.learned_down,
    Network.takeDown]
  by_cases receiver : other = node
  · subst receiver
    simp [apart.symm]
  · by_cases asker : other = peer
    · subst asker
      simp [receiver]
    · simp [receiver, asker]

theorem relayed_clients {node peer : Node} {index : ℕ} {header reply : CNRSHeader}
    (other : Node) (id : QueryId) :
    (((((before.takeDown node index).learned node header).setClient node header.queryId
      none).sendDown peer reply).service other).queryClientCache id =
        if other = node ∧ id = header.queryId then none
        else (before.service other).queryClientCache id := by
  rw [Network.sendDown_service, Network.setClient_queryClientCache,
    Network.learned_queryClientCache, Network.takeDown_service]

-- A node answers those only that have it as their superior.
def Clients (hierarchy : Hierarchy Node) (net : Network Node) : Prop :=
  ∀ node qId peer, (net.service node).queryClientCache qId = some peer →
    hierarchy.superior peer = some node

theorem Clients.step {action : Action Node} (clients : Clients hierarchy before)
    (happened : step hierarchy before action = some after) : Clients hierarchy after := by
  intro server qId peer client
  cases step_move happened with
  | insert node name interfaces =>
      rw [Network.stored_queryClientCache] at client
      exact clients server qId peer client
  | insertArrived node superior index header above found insert =>
      rw [Network.stored_queryClientCache] at client
      exact clients server qId peer client
  | lookupSent node name asked superior miss fresh above =>
      refine clients server qId peer ?_
      simpa using client
  | lookupFailed node name asked miss fresh top =>
      refine clients server qId peer ?_
      simpa using client
  | queryForwarded node superior further index header above found query miss beyond =>
      rw [Network.sendUp_service, Network.recorded_queryClientCache] at client
      split at client
      · rename_i here
        rw [← Option.some.inj client, here.1]
        exact above
      · exact clients server qId peer client
  | relayed node asker index header found response known fits =>
      rw [Network.sendDown_service, Network.setClient_queryClientCache,
        Network.learned_queryClientCache] at client
      split at client
      · cases client
      · exact clients server qId peer client
  | called node index header lookup found response noClient entry =>
      refine clients server qId peer ?_
      simpa using client
  | unknown node index header found response noClient entry =>
      refine clients server qId peer ?_
      simpa using client
  | lookupHit | reported | unreported | queryHit | otherUp | otherDown | lostUp | lostDown =>
      exact clients server qId peer client

-- `ProcessQuery` enters a sub-node together with its callback.
def Relays (net : Network Node) : Prop :=
  ∀ node qId, (net.service node).queryClientCache qId ≠ none →
    (net.service node).queryCache qId = some .queryResponse

omit [DecidableEq Node] in
theorem Relays.frame (relays : Relays before)
    (clients : ∀ node,
      (after.service node).queryClientCache = (before.service node).queryClientCache)
    (queries : ∀ node qId, (before.service node).queryClientCache qId ≠ none →
      (after.service node).queryCache qId = (before.service node).queryCache qId) :
    Relays after := by
  intro node qId known
  rw [clients] at known
  rw [queries node qId known]
  exact relays node qId known

theorem Relays.setQuery (relays : Relays before) {node : Node} {qId : QueryId}
    (free : (before.service node).queryClientCache qId = none) (entry : Option Callback) :
    Relays (before.setQuery node qId entry) := by
  refine relays.frame (fun _ => Network.setQuery_queryClientCache _ _ _ _ _) ?_
  intro other id known
  rw [Network.setQuery_queryCache, if_neg]
  rintro ⟨rfl, rfl⟩
  exact known free

theorem Relays.step {action : Action Node} (relays : Relays before)
    (happened : step hierarchy before action = some after) : Relays after := by
  have unknown : ∀ {node : Node} {qId : QueryId}, (before.service node).queryCache qId = none →
      (before.service node).queryClientCache qId = none := by
    intro node qId fresh
    by_contra known
    rw [relays node qId known] at fresh
    cases fresh
  have learned : ∀ node index header,
      Relays ((before.takeDown node index).learned node header) := by
    intro node index header
    exact relays.frame (fun _ => Network.learned_queryClientCache _ _ _ _) fun _ _ _ => by
      rw [Network.learned_queryCache]
      rfl
  cases step_move happened with
  | insert node name interfaces =>
      exact relays.frame (fun _ => Network.stored_queryClientCache _ _ _ _ _ _)
        fun _ _ _ => by rw [Network.stored_queryCache]
  | insertArrived node superior index header above found insert =>
      exact relays.frame (fun _ => Network.stored_queryClientCache _ _ _ _ _ _)
        fun _ _ _ => by
          rw [Network.stored_queryCache]
          rfl
  | lookupSent node name qId superior miss fresh above =>
      have asked : Relays (before.ask node name) := relays
      exact asked.setQuery (unknown fresh) _
  | lookupFailed node name qId miss fresh top =>
      have asked : Relays (before.ask node name) := relays
      exact asked.setQuery (unknown fresh) _
  | queryForwarded node superior further index header above found query miss beyond =>
      intro other id known
      simp only [Network.sendUp_service, Network.recorded_queryClientCache] at known
      simp only [Network.sendUp_service, Network.recorded_queryCache]
      split
      · rfl
      · rename_i elsewhere
        rw [if_neg elsewhere] at known
        exact relays other id known
  | relayed node asker index header found response known fits =>
      intro other id noted
      rw [Network.sendDown_service, Network.setClient_queryClientCache,
        Network.learned_queryClientCache] at noted
      rw [Network.sendDown_service, Network.setClient_queryCache, Network.learned_queryCache]
      split at noted
      · exact absurd rfl noted
      · exact relays other id noted
  | called node index header lookup found response noClient entry =>
      exact (learned node index header).setQuery (by rwa [Network.learned_queryClientCache]) none
  | unknown node index header found response noClient entry => exact learned node index header
  | lookupHit | reported | unreported | queryHit | otherUp | otherDown | lostUp | lostDown =>
      exact relays

end FISim.NameResolution
