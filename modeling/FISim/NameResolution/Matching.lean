import FISim.NameResolution.Formed
import FISim.NameResolution.Lookups

/-!
Queries and their answers over whole runs: every lookup is called back once and
every query of a sub-node gets one response, as long as each step meets
`Answerable`.
-/

namespace FISim.NameResolution

open Transition

variable {Node : Type} [DecidableEq Node]

def isQuery (name : Name) (qId : QueryId) (header : CNRSHeader) : Bool :=
  header.method = .query ∧ header.cuid = name ∧ header.queryId = qId

-- How many queries for the name a node has sent under this id, and how many responses to them
-- it has been sent.
def queried (net : Network Node) (node : Node) (name : Name) (qId : QueryId) : ℕ :=
  net.sent.countP fun envelope =>
    match envelope with
    | .up other header => other = node ∧ isQuery name qId header = true
    | .down _ _ => False

def responded (net : Network Node) (node : Node) (name : Name) (qId : QueryId) : ℕ :=
  net.sent.countP fun envelope =>
    match envelope with
    | .up _ _ => False
    | .down other header => other = node ∧ header.cuid = name ∧ header.queryId = qId

/-- The callback of a local lookup gets its own name and a list that some node held, or the empty
list when no node holds one. -/
def ProperCall (hierarchy : Hierarchy Node) (past : List (Action Node))
    (before after : Network Node) (call : Call) : Prop :=
  (∃ node, after.lookups[call.lookup]? = some (node, call.name)) ∧
    (Held hierarchy past call.name call.interfaces ∨
      call.interfaces = [] ∧ ∀ node, (before.service node).itemCache call.name = none)

/-- Every lookup and every query of a sub-node is answered once. -/
structure Matched (hierarchy : Hierarchy Node) (actions : List (Action Node)) : Prop where
  proper : ∀ first action second before after, actions = first ++ action :: second →
    run (step hierarchy) {} first = some before → step hierarchy before action = some after →
      ∀ call ∈ after.called.drop before.called.length,
        ProperCall hierarchy first before after call
  once : ∀ first second net, actions = first ++ second →
    run (step hierarchy) {} first = some net → (net.called.map Call.lookup).Nodup
  atMost : ∀ first second net, actions = first ++ second →
    run (step hierarchy) {} first = some net → ∀ node superior,
      hierarchy.superior node = some superior → ∀ name qId,
        responded net node name qId ≤ queried net node name qId
  settled : ∀ first second net, actions = first ++ second →
    run (step hierarchy) {} first = some net → Quiet net →
      (∀ lookup < net.lookups.length, ∃ call ∈ net.called, call.lookup = lookup) ∧
      ∀ node superior, hierarchy.superior node = some superior → ∀ name qId,
        responded net node name qId = queried net node name qId
  survived : Survived hierarchy actions

structure Logged (hierarchy : Hierarchy Node) (asked : Node → QueryId → Name)
    (net : Network Node) : Prop where
  log : ∀ node superior, hierarchy.superior node = some superior → ∀ name qId,
    queried net node name qId = responded net node name qId +
      (net.up node).countP (isQuery name qId) +
        if (net.service superior).queryClientCache qId = some node ∧ asked node qId = name
        then 1 else 0

variable {hierarchy : Hierarchy Node} {asked : Node → QueryId → Name}
  {before after : Network Node}

theorem queried_up {header : CNRSHeader} {node other : Node} {name : Name} {qId : QueryId}
    (sent : after.sent = before.sent ++ [.up node header]) :
    queried after other name qId = queried before other name qId +
      if node = other ∧ isQuery name qId header = true then 1 else 0 := by
  simp [queried, sent, List.countP_append, List.countP_singleton]

theorem responded_up {header : CNRSHeader} {node other : Node} {name : Name} {qId : QueryId}
    (sent : after.sent = before.sent ++ [.up node header]) :
    responded after other name qId = responded before other name qId := by
  simp [responded, sent, List.countP_append]

theorem queried_down {header : CNRSHeader} {node other : Node} {name : Name} {qId : QueryId}
    (sent : after.sent = before.sent ++ [.down node header]) :
    queried after other name qId = queried before other name qId := by
  simp [queried, sent, List.countP_append]

theorem responded_down {header : CNRSHeader} {node other : Node} {name : Name} {qId : QueryId}
    (sent : after.sent = before.sent ++ [.down node header]) :
    responded after other name qId = responded before other name qId +
      if node = other ∧ header.cuid = name ∧ header.queryId = qId then 1 else 0 := by
  simp [responded, sent, List.countP_append, List.countP_singleton]

theorem countP_taken {queue : List CNRSHeader} {index : ℕ} {header : CNRSHeader}
    (found : queue[index]? = some header) (name : Name) (qId : QueryId) :
    (queue.eraseIdx index).countP (isQuery name qId) +
      (if isQuery name qId header = true then 1 else 0) = queue.countP (isQuery name qId) := by
  have perm := (taken_perm found).countP_eq (isQuery name qId)
  rw [List.countP_cons] at perm
  exact perm

theorem Logged.frame (logged : Logged hierarchy asked before)
    (queries : ∀ node name qId, queried after node name qId = queried before node name qId)
    (responses : ∀ node name qId, responded after node name qId = responded before node name qId)
    (up : ∀ node name qId, (after.up node).countP (isQuery name qId) =
      (before.up node).countP (isQuery name qId))
    (clients : ∀ node,
      (after.service node).queryClientCache = (before.service node).queryClientCache) :
    Logged hierarchy asked after := by
  refine ⟨fun node superior above name qId => ?_⟩
  rw [queries, responses, up, clients]
  exact logged.log node superior above name qId

theorem Logged.rename (logged : Logged hierarchy asked before)
    (outstanding : Outstanding hierarchy asked before) {node superior : Node} {qId : QueryId}
    (above : hierarchy.superior node = some superior)
    (idle : awaits (before.service node) qId = false) (name : Name) :
    Logged hierarchy (renamed asked node qId name) before := by
  refine ⟨fun other server otherAbove asks id => ?_⟩
  rw [logged.log other server otherAbove asks id]
  by_cases here : other = node ∧ id = qId
  · obtain ⟨rfl, rfl⟩ := here
    rw [above, Option.some.injEq] at otherAbove
    subst otherAbove
    have unnoted := (outstanding.unasked above idle).2.2
    simp [unnoted]
  · rw [renamed, if_neg here]

theorem Logged.lookupSent (logged : Logged hierarchy asked before) {node : Node} {qId : QueryId}
    {name : Name} {lookup : ℕ} :
    Logged hierarchy asked
      (((before.ask node name).setQuery node qId (some (.application lookup))).sendUp node
        (queryHeader name qId)) := by
  refine ⟨fun other server otherAbove asks id => ?_⟩
  rw [queried_up rfl, responded_up rfl]
  have total := logged.log other server otherAbove asks id
  have client : ((((before.ask node name).setQuery node qId
      (some (.application lookup))).sendUp node (queryHeader name qId)).service
        server).queryClientCache = (before.service server).queryClientCache := by simp
  change queried before other asks id + _ = responded before other asks id +
    (Function.update before.up node (before.up node ++ [queryHeader name qId]) other).countP
      (isQuery asks id) + _
  rw [client]
  by_cases same : other = node
  · subst same
    rw [Function.update_self, List.countP_append, List.countP_singleton]
    simp only [true_and]
    omega
  · rw [Function.update_of_ne same, if_neg fun both => same both.1.symm]
    omega

theorem isQuery_iff {name : Name} {qId : QueryId} {header : CNRSHeader}
    (query : header.method = .query) :
    isQuery name qId header = true ↔ header.cuid = name ∧ header.queryId = qId := by
  simp [isQuery, query]

theorem Logged.queryHit (logged : Logged hierarchy asked before) {node : Node} {index : ℕ}
    {header : CNRSHeader} (found : (before.up node)[index]? = some header)
    (query : header.method = .query) (interfaces : CybertwinInterfaceList) :
    Logged hierarchy asked ((before.takeUp node index).sendDown node
      (okHeader header.cuid header.queryId interfaces)) := by
  refine ⟨fun other server otherAbove asks id => ?_⟩
  rw [queried_down rfl, responded_down rfl]
  have total := logged.log other server otherAbove asks id
  change queried before other asks id = responded before other asks id +
    (if node = other ∧ header.cuid = asks ∧ header.queryId = id then 1 else 0) +
    (Function.update before.up node ((before.up node).eraseIdx index) other).countP
      (isQuery asks id) +
    if (before.service server).queryClientCache id = some other ∧ asked other id = asks
      then 1 else 0
  by_cases same : other = node
  · subst same
    have taken := countP_taken found asks id
    simp only [isQuery_iff query] at taken
    rw [Function.update_self]
    simp only [true_and]
    omega
  · rw [Function.update_of_ne same, if_neg fun both => same both.1.symm]
    omega

theorem Logged.queryForwarded (tree : hierarchy.Tree) (logged : Logged hierarchy asked before)
    (outstanding : Outstanding hierarchy asked before) {node superior further : Node}
    {index : ℕ} {header : CNRSHeader} (above : hierarchy.superior node = some superior)
    (found : (before.up node)[index]? = some header) (query : header.method = .query)
    (beyond : hierarchy.superior superior = some further)
    (idle : awaits (before.service superior) header.queryId = false) :
    Logged hierarchy asked
      (((before.takeUp node index).recorded superior header.queryId node).sendUp superior
        (queryHeader header.cuid header.queryId)) := by
  have named := outstanding.up node header (List.mem_of_getElem? found) query
  have cleared := client_of_idle idle
  have apart : node ≠ superior := by
    rintro rfl
    exact tree.notSelf _ above
  refine ⟨fun other server otherAbove asks id => ?_⟩
  have total := logged.log other server otherAbove asks id
  rw [queried_up rfl, responded_up rfl, forwarded_up apart, forwarded_clients]
  change queried before other asks id + _ = responded before other asks id + _ + _
  by_cases sender : other = node
  · subst sender
    rw [above, Option.some.injEq] at otherAbove
    subst otherAbove
    have taken := countP_taken found asks id
    simp only [isQuery_iff query] at taken
    rw [if_pos rfl, if_neg fun both => apart both.1.symm]
    by_cases same : id = header.queryId
    · subst same
      rw [cleared] at total
      simp only [named] at taken
      simp only [true_and, and_true, if_true]
      simp only [reduceCtorEq, false_and, if_false] at total
      simp only [and_true] at taken
      omega
    · have different : ¬ header.queryId = id := fun equal => same equal.symm
      simp only [different, and_false, if_false] at taken
      simp only [same, and_false, if_false]
      omega
  · rw [if_neg sender]
    have kept : (if server = superior ∧ id = header.queryId then some node
        else (before.service server).queryClientCache id) = some other ↔
          (before.service server).queryClientCache id = some other := by
      by_cases here : server = superior ∧ id = header.queryId
      · rw [if_pos here, here.1, here.2, cleared]
        simp [Ne.symm sender]
      · rw [if_neg here]
    simp only [kept]
    by_cases receiver : other = superior
    · subst receiver
      rw [if_pos rfl, List.countP_append, List.countP_singleton]
      simp only [true_and]
      omega
    · rw [if_neg receiver, if_neg fun both => receiver both.1.symm]
      omega

theorem Logged.relayed (logged : Logged hierarchy asked before)
    (outstanding : Outstanding hierarchy asked before) {node peer : Node} {index : ℕ}
    {header : CNRSHeader} (found : (before.down node)[index]? = some header)
    (client : (before.service node).queryClientCache header.queryId = some peer) :
    Logged hierarchy asked
      ((((before.takeDown node index).learned node header).setClient node header.queryId
        none).sendDown peer (responseHeader header.cuid header.queryId (answer header))) := by
  obtain ⟨_, named, numbered, _⟩ :=
    responseHeader_spec header.cuid header.queryId (answer header)
  generalize responseHeader header.cuid header.queryId (answer header) = reply at *
  have below := outstanding.clients node header.queryId peer client
  have asks : header.cuid = asked peer header.queryId := by
    rw [← outstanding.noted peer node below header.queryId client]
    exact (outstanding.down node header (List.mem_of_getElem? found)).2
  refine ⟨fun other server otherAbove name id => ?_⟩
  have total := logged.log other server otherAbove name id
  have history : ((((before.takeDown node index).learned node header).setClient node
      header.queryId none).sendDown peer reply).sent = before.sent ++ [.down peer reply] := by
    simp [Network.sendDown, Network.setClient, Network.setService, Network.takeDown]
  have up : ((((before.takeDown node index).learned node header).setClient node
      header.queryId none).sendDown peer reply).up = before.up := by
    simp [Network.sendDown, Network.setClient, Network.setService, Network.takeDown]
  rw [queried_down history, responded_down history, up, relayed_clients, named, numbered]
  by_cases asker : other = peer
  · subst asker
    rw [below, Option.some.injEq] at otherAbove
    subst otherAbove
    by_cases same : id = header.queryId
    · subst same
      rw [client] at total
      simp only [true_and, asks, and_true, if_true, reduceCtorEq, false_and, if_false]
      simp only [true_and] at total
      omega
    · have different : ¬ header.queryId = id := fun equal => same equal.symm
      simp only [same, different, and_false, if_false]
      omega
  · have kept : (if server = node ∧ id = header.queryId then none
        else (before.service server).queryClientCache id) = some other ↔
          (before.service server).queryClientCache id = some other := by
      by_cases here : server = node ∧ id = header.queryId
      · rw [if_pos here, here.1, here.2, client]
        simp [Ne.symm asker]
      · rw [if_neg here]
    simp only [kept]
    rw [if_neg fun both => asker both.1.symm]
    omega

structure Accounted (hierarchy : Hierarchy Node) (asked : Node → QueryId → Name)
    (net : Network Node) : Prop where
  outstanding : Outstanding hierarchy asked net
  logged : Logged hierarchy asked net
  lookups : Lookups hierarchy asked net

theorem Accounted.stored (accounted : Accounted hierarchy asked before) (node : Node)
    (name : Name) (interfaces : CybertwinInterfaceList) :
    Accounted hierarchy asked (before.stored hierarchy node name interfaces) where
  outstanding := by
    refine accounted.outstanding.frame (fun _ => Network.stored_queryClientCache _ _ _ _ _ _)
      (fun _ => Network.stored_queryCache _ _ _ _ _ _) (Network.stored_down _ _ _ _ _) ?_ ?_ ?_
    · intro other id
      rw [Network.stored_up]
    · intro other header inside _
      rwa [Network.stored_up] at inside
    · intro other none
      rw [Network.stored_up]
      exact (accounted.outstanding.sent other none).1
  logged := by
    refine accounted.logged.frame ?_ ?_ ?_ fun _ => Network.stored_queryClientCache _ _ _ _ _ _
    · intro other asks id
      rw [queried, Network.stored_sent]
      rfl
    · intro other asks id
      rw [responded, Network.stored_sent]
      rfl
    · intro other asks id
      rw [Network.stored_up]
  lookups := by
    refine accounted.lookups.frame (Network.stored_lookups _ _ _ _ _)
      (Network.stored_called _ _ _ _ _) fun other id lookup => ?_
    rw [Pending, Network.stored_queryCache]
    rfl

theorem Accounted.takeUp (accounted : Accounted hierarchy asked before) {node superior : Node}
    {index : ℕ} {header : CNRSHeader} (above : hierarchy.superior node = some superior)
    (found : (before.up node)[index]? = some header) (other : header.method ≠ .query) :
    Accounted hierarchy asked (before.takeUp node index) where
  outstanding := by
    refine accounted.outstanding.frame (fun _ => rfl) (fun _ => rfl) rfl ?_ ?_ ?_
    · intro sender id
      by_cases same : sender = node
      · subst same
        have taken := asking_taken found id
        simp only [other, false_and, if_false, Nat.add_zero] at taken
        simp only [Network.takeUp, Function.update_self]
        exact taken
      · simp only [Network.takeUp, Function.update_of_ne same]
    · intro sender message inside _
      by_cases same : sender = node
      · subst same
        simp only [Network.takeUp, Function.update_self] at inside
        exact List.mem_of_mem_eraseIdx inside
      · simpa only [Network.takeUp, Function.update_of_ne same] using inside
    · intro sender none
      have apart : sender ≠ node := by
        rintro rfl
        rw [above] at none
        cases none
      simp only [Network.takeUp, Function.update_of_ne apart]
      exact (accounted.outstanding.sent sender none).1
  logged := by
    refine accounted.logged.frame (fun _ _ _ => rfl) (fun _ _ _ => rfl) ?_ fun _ => rfl
    intro sender asks id
    by_cases same : sender = node
    · subst same
      have taken := countP_taken found asks id
      simp only [isQuery, other, false_and, decide_false, Bool.false_eq_true, if_false,
        Nat.add_zero] at taken
      simp only [Network.takeUp, Function.update_self]
      exact taken
    · simp only [Network.takeUp, Function.update_of_ne same]
  lookups := accounted.lookups.frame rfl rfl fun _ _ _ => Iff.rfl

theorem Accounted.sendUp (accounted : Accounted hierarchy asked before) {node superior : Node}
    {header : CNRSHeader} (above : hierarchy.superior node = some superior)
    (other : header.method ≠ .query) :
    Accounted hierarchy asked (before.sendUp node header) where
  outstanding := by
    refine accounted.outstanding.frame (fun _ => rfl) (fun _ => rfl) rfl ?_ ?_ ?_
    · intro sender id
      by_cases same : sender = node
      · subst same
        simp only [Network.sendUp, Function.update_self, asking_append]
        simp [other]
      · simp only [Network.sendUp, Function.update_of_ne same]
    · intro sender message inside query
      by_cases same : sender = node
      · subst same
        simp only [Network.sendUp, Function.update_self] at inside
        rcases List.mem_append.mp inside with old | new
        · exact old
        · rw [List.mem_singleton.mp new] at query
          exact absurd query other
      · simpa only [Network.sendUp, Function.update_of_ne same] using inside
    · intro sender none
      have apart : sender ≠ node := by
        rintro rfl
        rw [above] at none
        cases none
      simp only [Network.sendUp, Function.update_of_ne apart]
      exact (accounted.outstanding.sent sender none).1
  logged := by
    refine accounted.logged.frame ?_ ?_ ?_ fun _ => rfl
    · intro sender asks id
      rw [queried_up rfl]
      simp [isQuery, other]
    · intro sender asks id
      rw [responded_up rfl]
    · intro sender asks id
      by_cases same : sender = node
      · subst same
        simp [Network.sendUp, isQuery, other]
      · simp only [Network.sendUp, Function.update_of_ne same]
  lookups := accounted.lookups.frame rfl rfl fun _ _ _ => Iff.rfl

theorem Accounted.lookupHit (accounted : Accounted hierarchy asked before) (node : Node)
    (name : Name) (interfaces : CybertwinInterfaceList) :
    Accounted hierarchy asked
      ((before.ask node name).call before.lookups.length name interfaces) where
  outstanding := accounted.outstanding.frame (fun _ => rfl) (fun _ => rfl) rfl (fun _ _ => rfl)
    (fun _ _ inside _ => inside) fun other none => (accounted.outstanding.sent other none).1
  logged := accounted.logged.frame (fun _ _ _ => rfl) (fun _ _ _ => rfl) (fun _ _ _ => rfl)
    fun _ => rfl
  lookups := accounted.lookups.answered rfl rfl fun _ _ _ => Iff.rfl

theorem Accounted.lookupSent (accounted : Accounted hierarchy asked before)
    {node superior : Node} {qId : QueryId} (name : Name)
    (above : hierarchy.superior node = some superior)
    (fresh : (before.service node).queryCache qId = none) :
    Accounted hierarchy (renamed asked node qId name)
      (((before.ask node name).setQuery node qId
        (some (.application before.lookups.length))).sendUp node (queryHeader name qId)) := by
  have idle := idle_of_fresh accounted.outstanding fresh
  have named : renamed asked node qId name node qId = name := by simp [renamed]
  refine ⟨?_, ?_, ?_⟩
  · exact (accounted.outstanding.rename above idle name).lookupSent above fresh named
  · exact (accounted.logged.rename accounted.outstanding above idle name).lookupSent
  · refine (accounted.lookups.rename idle name).sent rfl rfl named fun other id lookup => ?_
    rw [Pending, Network.sendUp_service, Network.setQuery_queryCache]
    by_cases here : other = node ∧ id = qId
    · obtain ⟨rfl, rfl⟩ := here
      simp [Pending, above, fresh, eq_comm]
    · rw [if_neg here]
      refine ⟨Or.inl, ?_⟩
      rintro (old | new)
      · exact old
      · exact absurd ⟨new.1, new.2.1⟩ here

theorem Accounted.lookupFailed (accounted : Accounted hierarchy asked before) {node : Node}
    (top : hierarchy.superior node = none) (name : Name) (qId : QueryId) :
    Accounted hierarchy asked
      (((before.ask node name).setQuery node qId
        (some (.application before.lookups.length))).call before.lookups.length name []) where
  outstanding := accounted.outstanding.lookupFailed top name qId before.lookups.length
  logged := accounted.logged.frame (fun _ _ _ => rfl) (fun _ _ _ => rfl) (fun _ _ _ => rfl)
    fun _ => by simp
  lookups := by
    refine accounted.lookups.answered rfl rfl fun other id lookup => ?_
    rw [Pending, Network.call_service, Network.setQuery_queryCache]
    by_cases here : other = node
    · subst here
      simp [Pending, top]
    · rw [if_neg fun both => here both.1]
      rfl

theorem Accounted.queryHit (accounted : Accounted hierarchy asked before)
    {node superior : Node} {index : ℕ} {header : CNRSHeader}
    (above : hierarchy.superior node = some superior)
    (found : (before.up node)[index]? = some header) (query : header.method = .query)
    (interfaces : CybertwinInterfaceList) :
    Accounted hierarchy asked ((before.takeUp node index).sendDown node
      (okHeader header.cuid header.queryId interfaces)) where
  outstanding := accounted.outstanding.queryHit above found query interfaces
  logged := accounted.logged.queryHit found query interfaces
  lookups := accounted.lookups.frame rfl rfl fun _ _ _ => Iff.rfl

theorem Accounted.queryForwarded (tree : hierarchy.Tree)
    (accounted : Accounted hierarchy asked before) {node superior further : Node}
    {index : ℕ} {header : CNRSHeader} (above : hierarchy.superior node = some superior)
    (found : (before.up node)[index]? = some header) (query : header.method = .query)
    (beyond : hierarchy.superior superior = some further)
    (idle : awaits (before.service superior) header.queryId = false) :
    Accounted hierarchy (renamed asked superior header.queryId header.cuid)
      (((before.takeUp node index).recorded superior header.queryId node).sendUp superior
        (queryHeader header.cuid header.queryId)) := by
  have outstanding := accounted.outstanding.rename beyond idle header.cuid
  have named : renamed asked superior header.queryId header.cuid superior header.queryId =
      header.cuid := by simp [renamed]
  refine ⟨?_, ?_, ?_⟩
  · exact outstanding.queryForwarded tree above found query beyond idle named
  · exact (accounted.logged.rename accounted.outstanding beyond idle header.cuid).queryForwarded
      tree outstanding above found query beyond idle
  · refine (accounted.lookups.rename idle header.cuid).frame rfl rfl fun other id lookup => ?_
    rw [Pending, forwarded_queries]
    by_cases here : other = superior ∧ id = header.queryId
    · obtain ⟨rfl, rfl⟩ := here
      have none : ∀ lookup, (before.service other).queryCache header.queryId ≠
          some (.application lookup) := by
        intro lookup entry
        simp [awaits, entry] at idle
      simp [Pending, none]
    · rw [if_neg here]
      rfl

theorem Accounted.relayed (tree : hierarchy.Tree)
    (accounted : Accounted hierarchy asked before) {node peer : Node} {index : ℕ}
    {header : CNRSHeader} (found : (before.down node)[index]? = some header)
    (client : (before.service node).queryClientCache header.queryId = some peer) :
    Accounted hierarchy asked
      ((((before.takeDown node index).learned node header).setClient node header.queryId
        none).sendDown peer (responseHeader header.cuid header.queryId (answer header))) where
  outstanding := accounted.outstanding.relayed tree found client
  logged := accounted.logged.relayed accounted.outstanding found client
  lookups := by
    refine accounted.lookups.frame ?_ ?_ fun other id lookup => ?_
    · simp [Network.sendDown, Network.setClient, Network.setService, Network.takeDown]
    · simp [Network.sendDown, Network.setClient, Network.setService, Network.takeDown]
    · simp [Pending]

theorem Accounted.called (accounted : Accounted hierarchy asked before) {node : Node}
    {index lookup : ℕ} {header : CNRSHeader} (found : (before.down node)[index]? = some header)
    (noClient : (before.service node).queryClientCache header.queryId = none)
    (entry : (before.service node).queryCache header.queryId = some (.application lookup)) :
    Accounted hierarchy asked
      ((((before.takeDown node index).learned node header).setQuery node header.queryId
        none).call lookup header.cuid (answer header)) where
  outstanding := accounted.outstanding.called found noClient
  logged := by
    refine accounted.logged.frame ?_ ?_ ?_ ?_
    · intro other asks id
      simp [queried, Network.call, Network.setQuery, Network.setService, Network.takeDown]
    · intro other asks id
      simp [responded, Network.call, Network.setQuery, Network.setService, Network.takeDown]
    · intro other asks id
      simp [Network.call, Network.setQuery, Network.setService, Network.takeDown]
    · intro other
      simp
  lookups := by
    obtain ⟨⟨superior, above⟩, _⟩ := accounted.outstanding.awaited found
    have waited : Pending hierarchy before node header.queryId lookup :=
      ⟨by simp [above], entry⟩
    have grown : ((((before.takeDown node index).learned node header).setQuery node
        header.queryId none).call lookup header.cuid (answer header)).called =
          before.called ++ [⟨lookup, header.cuid, answer header⟩] := by
      simp [Network.call, Network.setQuery, Network.setService, Network.takeDown]
    refine accounted.lookups.called waited ?_ grown fun other id number => ?_
    · simp [Network.call, Network.setQuery, Network.setService, Network.takeDown]
    · rw [Pending, Network.call_service, Network.setQuery_queryCache,
        Network.learned_queryCache, Network.takeDown_service]
      by_cases here : other = node ∧ id = header.queryId
      · simp [here]
      · simp [Pending, here]

theorem Accounted.step (tree : hierarchy.Tree) (accounted : Accounted hierarchy asked before)
    {action : Action Node} (answerable : Answerable hierarchy before action)
    (happened : NameResolution.step hierarchy before action = some after) :
    ∃ later, Accounted hierarchy later after := by
  cases step_move happened with
  | insert node name interfaces => exact ⟨asked, accounted.stored node name interfaces⟩
  | insertArrived node superior index header above found insert =>
      have taken := accounted.takeUp above found (by simp [insert])
      exact ⟨asked, taken.stored superior header.cuid header.interfaceList⟩
  | lookupHit node name qId interfaces hit =>
      exact ⟨asked, accounted.lookupHit node name interfaces⟩
  | lookupSent node name qId superior miss fresh above =>
      exact ⟨_, accounted.lookupSent name above fresh⟩
  | lookupFailed node name qId miss fresh top => exact ⟨asked, accounted.lookupFailed top name qId⟩
  | reported node superior name interfaces rest pending above fits =>
      have sent : Accounted hierarchy asked
          (before.sendUp node (insertHeader name interfaces)) :=
        accounted.sendUp above fun query => by cases query
      refine ⟨asked, ⟨?_, ?_, ?_⟩⟩
      · exact { sent.outstanding with }
      · exact { sent.logged with }
      · exact { sent.lookups with }
  | unreported node name interfaces rest pending top =>
      refine ⟨asked, ⟨?_, ?_, ?_⟩⟩
      · exact { accounted.outstanding with }
      · exact { accounted.logged with }
      · exact { accounted.lookups with }
  | queryHit node superior index header interfaces above found query hit fits =>
      exact ⟨asked, accounted.queryHit above found query interfaces⟩
  | queryForwarded node superior further index header above found query miss beyond =>
      obtain ⟨_, noClient, noLookup⟩ := answerable superior header above found query miss
      have idle : awaits (before.service superior) header.queryId = false := by
        cases entry : (before.service superior).queryCache header.queryId with
        | none => simp [awaits, noClient, entry]
        | some callback =>
            cases callback with
            | application lookup => exact absurd entry (noLookup lookup)
            | queryResponse => simp [awaits, noClient, entry]
      exact ⟨_, accounted.queryForwarded tree above found query beyond idle⟩
  | otherUp node superior index header above found other =>
      exact ⟨asked, accounted.takeUp above found other.1⟩
  | relayed node peer index header found response client fits =>
      exact ⟨asked, accounted.relayed tree found client⟩
  | called node index header lookup found response noClient entry =>
      exact ⟨asked, accounted.called found noClient entry⟩
  | unknown node index header found response noClient entry =>
      have waited := (accounted.outstanding.awaited found).2
      simp [awaits, noClient, entry] at waited
  | otherDown node index header found other =>
      have inside := List.mem_of_getElem? found
      exact absurd (accounted.outstanding.down node header inside).1 other
  | lostUp | lostDown => exact answerable.elim

theorem Accounted.empty : Accounted hierarchy asked {} where
  outstanding :=
    { clients := fun node qId peer client => by cases client
      relays := fun node qId client => absurd rfl client
      top := fun node none qId => rfl
      balance := fun node superior above qId => rfl
      up := fun node header inside => by cases inside
      down := fun node header inside => by cases inside
      noted := fun node superior above qId client => by cases client
      sent := fun node none => ⟨rfl, rfl⟩ }
  logged := ⟨fun node superior above name qId => rfl⟩
  lookups := Lookups.empty

theorem Formed.empty : Formed hierarchy [] {} where
  items node name interfaces held := by cases held
  reports node report inside := by cases inside
  up node header inside := by cases inside
  down node header inside := by cases inside

theorem accounted_run (tree : hierarchy.Tree) {actions : List (Action Node)}
    (guarded : Guarded (step hierarchy) (Answerable hierarchy) {} actions) {net : Network Node}
    (ran : run (step hierarchy) {} actions = some net) :
    Formed hierarchy actions net ∧ ∃ asked, Accounted hierarchy asked net := by
  have tracked : run (step hierarchy) {} actions = some net ∧ Formed hierarchy actions net ∧
      ∃ asked, Accounted hierarchy asked net := by
    refine run_history (fun past net => run (step hierarchy) {} past = some net ∧
      Formed hierarchy past net ∧ ∃ asked, Accounted hierarchy asked net)
      ?_ ⟨rfl, Formed.empty, fun _ _ => 0, Accounted.empty⟩ guarded ran
    rintro past before action after ⟨ranBefore, formed, asked, accounted⟩ answerable happened
    refine ⟨run_append_some ranBefore (by simpa using happened), ?_, ?_⟩
    · exact formed.step ranBefore answerable happened
    · exact accounted.step tree answerable happened
  exact tracked.2

/-- In a quiet network nobody waits: a node that waits is noted by its superior, which waits
too, and a root never waits. -/
theorem Outstanding.idle_of_quiet (tree : hierarchy.Tree)
    (outstanding : Outstanding hierarchy asked before) (quiet : Quiet before) {node : Node}
    (below : hierarchy.superior node ≠ none) (qId : QueryId) :
    awaits (before.service node) qId = false := by
  obtain ⟨rank, descends⟩ := Chain.exists_rank tree.ends
  induction height : rank node using Nat.strong_induction_on generalizing node with
  | _ height ih =>
      obtain ⟨superior, above⟩ := Option.ne_none_iff_exists'.mp below
      have total := outstanding.balance node superior above qId
      rw [quiet.up, quiet.down] at total
      by_contra waits
      rw [Bool.not_eq_false] at waits
      rw [waits] at total
      have noted : (before.service superior).queryClientCache qId = some node := by
        by_contra unnoted
        simp [records, unnoted, asking, answering] at total
      have further : hierarchy.superior superior ≠ none := by
        intro top
        rw [outstanding.top superior top] at noted
        cases noted
      have lower := descends node superior above
      have idle := ih (rank superior) (by omega) further rfl
      rw [client_of_idle idle] at noted
      cases noted

theorem proper_step {past : List (Action Node)} {action : Action Node}
    (ran : run (step hierarchy) {} past = some before) (formed : Formed hierarchy past before)
    (accounted : Accounted hierarchy asked before)
    (answerable : Answerable hierarchy before action)
    (happened : NameResolution.step hierarchy before action = some after) :
    ∀ call ∈ after.called.drop before.called.length,
      ProperCall hierarchy past before after call := by
  have silent : after.called = before.called → ∀ call ∈ after.called.drop before.called.length,
      ProperCall hierarchy past before after call := by
    intro same call new
    rw [same, List.drop_length] at new
    cases new
  have called : ∀ single, after.called = before.called ++ [single] →
      ProperCall hierarchy past before after single →
        ∀ call ∈ after.called.drop before.called.length,
          ProperCall hierarchy past before after call := by
    intro single grown proper call new
    rw [grown, List.drop_left] at new
    rw [List.mem_singleton.mp new]
    exact proper
  cases step_move happened with
  | lookupHit node name qId interfaces hit =>
      refine called ⟨before.lookups.length, name, interfaces⟩ rfl ⟨⟨node, ?_⟩, Or.inl ?_⟩
      · exact List.getElem?_concat_length
      · exact held_now ran hit
  | lookupFailed node name qId miss fresh top =>
      refine called ⟨before.lookups.length, name, []⟩ rfl ⟨⟨node, ?_⟩, Or.inr ⟨rfl, ?_⟩⟩
      · exact List.getElem?_concat_length
      · exact answerable top miss
  | called node index header lookup found response noClient entry =>
      have inside := List.mem_of_getElem? found
      obtain ⟨⟨superior, above⟩, _⟩ := accounted.outstanding.awaited found
      have waited : Pending hierarchy before node header.queryId lookup :=
        ⟨by simp [above], entry⟩
      have known := (accounted.lookups.waiting node header.queryId lookup waited).1
      rw [← (accounted.outstanding.down node header inside).2] at known
      refine called ⟨lookup, header.cuid, answer header⟩ ?_ ⟨⟨node, ?_⟩, Or.inl ?_⟩
      · simp [Network.call, Network.setQuery, Network.setService, Network.takeDown]
      · simpa [Network.call, Network.setQuery, Network.setService, Network.takeDown] using known
      · exact (formed.down node header inside).2
  | relayed | unknown =>
      refine silent ?_
      simp [Network.sendDown, Network.setClient, Network.setService, Network.takeDown]
  | insert | insertArrived => exact silent (Network.stored_called _ _ _ _ _)
  | lookupSent | reported | unreported | queryHit | queryForwarded | otherUp | otherDown | lostUp
  | lostDown => exact silent rfl

theorem survives_of_answerable {past : List (Action Node)} {action : Action Node}
    (formed : Formed hierarchy past before) (accounted : Accounted hierarchy asked before)
    (answerable : Answerable hierarchy before action) : Survives hierarchy before action := by
  cases action with
  | insert | lookup | loseUp | loseDown => trivial
  | report node =>
      exact fun _ report first => formed.reports node report (List.mem_of_mem_head? first)
  | deliverUp node index =>
      intro superior header above found query
      constructor
      · exact fun interfaces held => formed.items superior header.cuid interfaces held
      · exact fun miss => (answerable superior header above found query miss).1
  | deliverDown node index =>
      intro header found response
      refine ⟨fun _ => (formed.down node header (List.mem_of_getElem? found)).1, ?_⟩
      intro noClient left
      have waited := (accounted.outstanding.awaited found).2
      simp [awaits, noClient, left] at waited

/-- Every lookup and every query is answered once, as long as each step meets `Answerable`. -/
theorem matched_of_answerable (tree : hierarchy.Tree) (actions : List (Action Node))
    (guarded : Guarded (step hierarchy) (Answerable hierarchy) {} actions) :
    Matched hierarchy actions where
  proper := by
    rintro first action second before after rfl ran happened
    obtain ⟨formed, asked, accounted⟩ := accounted_run tree guarded.append_left ran
    exact proper_step ran formed accounted (guarded.append_right ran).1 happened
  once := by
    rintro first second net rfl ran
    obtain ⟨_, asked, accounted⟩ := accounted_run tree guarded.append_left ran
    exact accounted.lookups.once
  atMost := by
    rintro first second net rfl ran node superior above name qId
    obtain ⟨_, asked, accounted⟩ := accounted_run tree guarded.append_left ran
    rw [accounted.logged.log node superior above name qId]
    omega
  settled := by
    rintro first second net rfl ran quiet
    obtain ⟨_, asked, accounted⟩ := accounted_run tree guarded.append_left ran
    refine ⟨fun lookup made => ?_, fun node superior above name qId => ?_⟩
    · rcases accounted.lookups.every lookup made with known | ⟨node, qId, below, entry⟩
      · exact known
      · have idle := accounted.outstanding.idle_of_quiet tree quiet below qId
        simp [awaits, entry] at idle
    · have below : hierarchy.superior node ≠ none := by simp [above]
      have idle := accounted.outstanding.idle_of_quiet tree quiet below qId
      have unnoted := (accounted.outstanding.unasked above idle).2.2
      rw [accounted.logged.log node superior above name qId, quiet.up,
        if_neg fun both => unnoted both.1]
      rfl
  survived := by
    rw [survived_iff]
    refine guarded_of_reached fun first action second before split ran => ?_
    obtain ⟨formed, asked, accounted⟩ := accounted_run tree (split ▸ guarded).append_left ran
    exact survives_of_answerable formed accounted ((split ▸ guarded).append_right ran).1

def answeredRun : List (Action Bool) :=
  [.insert false 7 [(1, 80)], .lookup true 7 1, .deliverUp true 0, .deliverDown true 0]

theorem matched_pair : Matched pair answeredRun := by
  have short : [((1 : UInt32), (80 : UInt16))].length ≤ 255 := by decide
  refine matched_of_answerable pair_tree answeredRun ⟨short, fun inserted happened => ?_⟩
  obtain rfl := Option.some.inj happened
  have below : pair.superior true ≠ none := by decide
  refine ⟨fun top => absurd top below, fun asking happened => ?_⟩
  obtain rfl := Option.some.inj happened
  refine ⟨fun superior header above found query miss => ?_, fun answering happened => ?_⟩
  · obtain rfl := Option.some.inj above
    obtain rfl := Option.some.inj found
    cases miss
  · exact ⟨trivial, fun _ _ => trivial⟩

-- The root has no superior to ask for the name.
def unknownRun : List (Action Bool) := [.lookup true 7 1, .deliverUp true 0]

-- The middle and the leaf draw the same id, for two names of the root.
def collidingRun : List (Action Tier) :=
  [.insert .root 7 [(1, 80)], .insert .root 8 [(2, 80)], .lookup .middle 7 1, .lookup .leaf 8 1,
    .deliverUp .leaf 0, .deliverUp .middle 0, .deliverDown .middle 0, .deliverDown .leaf 0]

/-- The root aborts over a query that it cannot answer, and of two queries with one id the leaf
gets the answer to the other's. -/
theorem not_matched :
    (∀ action ∈ unknownRun, Fifo action) ∧ ¬ Matched pair unknownRun ∧
      tiers.Tree ∧ (∀ action ∈ collidingRun, Fifo action) ∧
        (∃ net, run (step tiers) {} collidingRun = some net ∧
          net.lookups = [(.middle, 7), (.leaf, 8)] ∧ net.called = [⟨1, 7, [(1, 80)]⟩]) ∧
        ¬ Matched tiers collidingRun := by
  refine ⟨?_, ?_, tiers_tree, ?_, ⟨_, rfl, rfl, rfl⟩, ?_⟩
  · intro action inside
    simp only [unknownRun, List.mem_cons, List.not_mem_nil, or_false] at inside
    rcases inside with rfl | rfl <;> trivial
  · intro matched
    have aborts := (matched.survived.2 _ rfl).1 ⟨by decide, by decide⟩
    revert aborts
    decide
  · intro action inside
    simp only [collidingRun, List.mem_cons, List.not_mem_nil, or_false] at inside
    rcases inside with rfl | rfl | rfl | rfl | rfl | rfl | rfl | rfl <;> trivial
  · intro matched
    obtain ⟨⟨node, named⟩, _⟩ := matched.proper (collidingRun.take 7) (.deliverDown .leaf 0) [] _ _
      rfl rfl rfl ⟨1, 7, [(1, 80)]⟩ (by decide)
    cases named

end FISim.NameResolution
