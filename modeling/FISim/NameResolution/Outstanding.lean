import FISim.NameResolution.Moves

/-!
The queries that a node waits for.  As long as no query is lost at a root and no
two queries meet under one id, each of them is in exactly one place: on its way
up, noted by the superior, or answered and on its way down.
-/

namespace FISim.NameResolution

variable {Node : Type} [DecidableEq Node]

/-- The condition under which the service answers: lists fit a header, nothing is lost, and a
query that misses can be forwarded under an id that its server does not wait for itself. -/
def Answerable (hierarchy : Hierarchy Node) (before : Network Node) : Action Node → Prop
  | .insert _ _ interfaces => interfaces.length ≤ 255
  | .lookup node name _ => hierarchy.superior node = none →
      (before.service node).itemCache name = none →
        ∀ other, (before.service other).itemCache name = none
  | .deliverUp node index => ∀ superior header, hierarchy.superior node = some superior →
      (before.up node)[index]? = some header → header.method = .query →
        (before.service superior).itemCache header.cuid = none →
          hierarchy.superior superior ≠ none ∧
            (before.service superior).queryClientCache header.queryId = none ∧
            ∀ lookup, (before.service superior).queryCache header.queryId ≠
              some (.application lookup)
  | .report _ | .deliverDown _ _ => True
  | .loseUp _ _ | .loseDown _ _ => False

def asking (queue : List CNRSHeader) (qId : QueryId) : ℕ :=
  queue.countP fun header => header.method = .query ∧ header.queryId = qId

def answering (queue : List CNRSHeader) (qId : QueryId) : ℕ :=
  queue.countP fun header => header.queryId = qId

-- The node waits for an answer, for a sub-node or for itself.
def awaits (service : Service Node) (qId : QueryId) : Bool :=
  (service.queryClientCache qId).isSome ||
    match service.queryCache qId with
    | some (.application _) => true
    | _ => false

def records (service : Service Node) (qId : QueryId) (node : Node) : ℕ :=
  if service.queryClientCache qId = some node then 1 else 0

/-- Where the queries are; `asked node qId` is the name that the node asked for last under this
id. -/
structure Outstanding (hierarchy : Hierarchy Node) (asked : Node → QueryId → Name)
    (net : Network Node) : Prop where
  clients : Clients hierarchy net
  relays : ∀ node qId, (net.service node).queryClientCache qId ≠ none →
    (net.service node).queryCache qId = some .queryResponse
  top : ∀ node, hierarchy.superior node = none → ∀ qId,
    (net.service node).queryClientCache qId = none
  balance : ∀ node superior, hierarchy.superior node = some superior → ∀ qId,
    asking (net.up node) qId + answering (net.down node) qId +
      records (net.service superior) qId node = (awaits (net.service node) qId).toNat
  up : ∀ node, ∀ header ∈ net.up node, header.method = .query →
    header.cuid = asked node header.queryId
  down : ∀ node, ∀ header ∈ net.down node,
    IsResponse header ∧ header.cuid = asked node header.queryId
  noted : ∀ node superior, hierarchy.superior node = some superior → ∀ qId,
    (net.service superior).queryClientCache qId = some node → asked superior qId = asked node qId
  sent : ∀ node, hierarchy.superior node = none → net.up node = [] ∧ net.down node = []

theorem asking_append (queue : List CNRSHeader) (header : CNRSHeader) (qId : QueryId) :
    asking (queue ++ [header]) qId =
      asking queue qId + if header.method = .query ∧ header.queryId = qId then 1 else 0 := by
  simp [asking, List.countP_append, List.countP_singleton]

theorem answering_append (queue : List CNRSHeader) (header : CNRSHeader) (qId : QueryId) :
    answering (queue ++ [header]) qId =
      answering queue qId + if header.queryId = qId then 1 else 0 := by
  simp [answering, List.countP_append, List.countP_singleton]

theorem asking_taken {queue : List CNRSHeader} {index : ℕ} {header : CNRSHeader}
    (found : queue[index]? = some header) (qId : QueryId) :
    asking (queue.eraseIdx index) qId +
      (if header.method = .query ∧ header.queryId = qId then 1 else 0) = asking queue qId := by
  have perm := (taken_perm found).countP_eq
    fun header => decide (header.method = .query ∧ header.queryId = qId)
  rw [List.countP_cons] at perm
  simpa [asking] using perm

theorem answering_taken {queue : List CNRSHeader} {index : ℕ} {header : CNRSHeader}
    (found : queue[index]? = some header) (qId : QueryId) :
    answering (queue.eraseIdx index) qId + (if header.queryId = qId then 1 else 0) =
      answering queue qId := by
  have perm := (taken_perm found).countP_eq fun header => decide (header.queryId = qId)
  rw [List.countP_cons] at perm
  simpa [answering] using perm

omit [DecidableEq Node] in
theorem awaits_congr {service other : Service Node} {qId : QueryId}
    (clients : service.queryClientCache qId = other.queryClientCache qId)
    (queries : service.queryCache qId = other.queryCache qId) :
    awaits service qId = awaits other qId := by
  rw [awaits, awaits, clients, queries]

omit [DecidableEq Node] in
theorem client_of_idle {service : Service Node} {qId : QueryId}
    (idle : awaits service qId = false) : service.queryClientCache qId = none := by
  cases client : service.queryClientCache qId with
  | none => rfl
  | some peer => simp [awaits, client] at idle

variable {hierarchy : Hierarchy Node} {asked : Node → QueryId → Name}
  {before after : Network Node}

theorem Outstanding.unasked (outstanding : Outstanding hierarchy asked before)
    {node superior : Node} {qId : QueryId} (above : hierarchy.superior node = some superior)
    (idle : awaits (before.service node) qId = false) :
    asking (before.up node) qId = 0 ∧ answering (before.down node) qId = 0 ∧
      (before.service superior).queryClientCache qId ≠ some node := by
  have total := outstanding.balance node superior above qId
  rw [idle, Bool.toNat_false] at total
  refine ⟨by omega, by omega, fun client => ?_⟩
  simp only [records, client, if_true] at total
  omega

theorem Outstanding.frame (outstanding : Outstanding hierarchy asked before)
    (clients : ∀ node,
      (after.service node).queryClientCache = (before.service node).queryClientCache)
    (queries : ∀ node, (after.service node).queryCache = (before.service node).queryCache)
    (down : after.down = before.down)
    (count : ∀ node qId, asking (after.up node) qId = asking (before.up node) qId)
    (inside : ∀ node, ∀ header ∈ after.up node, header.method = .query →
      header ∈ before.up node)
    (root : ∀ node, hierarchy.superior node = none → after.up node = []) :
    Outstanding hierarchy asked after where
  clients node qId peer := by
    rw [clients]
    exact outstanding.clients node qId peer
  relays node qId := by
    rw [clients, queries]
    exact outstanding.relays node qId
  top node none qId := by
    rw [clients]
    exact outstanding.top node none qId
  balance node superior above qId := by
    rw [count, down, awaits_congr (congrFun (clients node) qId) (congrFun (queries node) qId),
      records, clients]
    exact outstanding.balance node superior above qId
  up node header member query := outstanding.up node header (inside node header member query) query
  down := by
    rw [down]
    exact outstanding.down
  noted node superior above qId := by
    rw [clients]
    exact outstanding.noted node superior above qId
  sent node none := ⟨root node none, by
    rw [down]
    exact (outstanding.sent node none).2⟩

def renamed (asked : Node → QueryId → Name) (node : Node) (qId : QueryId) (name : Name) :
    Node → QueryId → Name :=
  fun other id => if other = node ∧ id = qId then name else asked other id

theorem Outstanding.rename (outstanding : Outstanding hierarchy asked before)
    {node superior : Node} {qId : QueryId} (above : hierarchy.superior node = some superior)
    (idle : awaits (before.service node) qId = false) (name : Name) :
    Outstanding hierarchy (renamed asked node qId name) before := by
  obtain ⟨unsent, unanswered, unnoted⟩ := outstanding.unasked above idle
  refine { outstanding with up := ?_, down := ?_, noted := ?_ }
  · intro other header inside query
    rw [renamed, if_neg]
    · exact outstanding.up other header inside query
    · rintro ⟨rfl, same⟩
      have none := List.countP_eq_zero.mp unsent header inside
      simp [query, same] at none
  · intro other header inside
    refine ⟨(outstanding.down other header inside).1, ?_⟩
    rw [renamed, if_neg]
    · exact (outstanding.down other header inside).2
    · rintro ⟨rfl, same⟩
      have none := List.countP_eq_zero.mp unanswered header inside
      simp [same] at none
  · intro other server otherAbove id client
    rw [renamed, renamed, if_neg, if_neg]
    · exact outstanding.noted other server otherAbove id client
    · rintro ⟨rfl, rfl⟩
      rw [above, Option.some.injEq] at otherAbove
      exact unnoted (otherAbove ▸ client)
    · rintro ⟨rfl, rfl⟩
      rw [client_of_idle idle] at client
      cases client

theorem idle_of_fresh (outstanding : Outstanding hierarchy asked before) {node : Node}
    {qId : QueryId} (fresh : (before.service node).queryCache qId = none) :
    awaits (before.service node) qId = false := by
  have client : (before.service node).queryClientCache qId = none := by
    by_contra known
    rw [outstanding.relays node qId known] at fresh
    cases fresh
  simp [awaits, client, fresh]

theorem Outstanding.lookupSent (outstanding : Outstanding hierarchy asked before)
    {node superior : Node} {qId : QueryId} {name : Name} {lookup : ℕ}
    (above : hierarchy.superior node = some superior)
    (fresh : (before.service node).queryCache qId = none) (named : asked node qId = name) :
    Outstanding hierarchy asked
      (((before.ask node name).setQuery node qId (some (.application lookup))).sendUp node
        (queryHeader name qId)) := by
  have idle := idle_of_fresh outstanding fresh
  obtain ⟨unsent, unanswered, unnoted⟩ := outstanding.unasked above idle
  have upHere : (((before.ask node name).setQuery node qId (some (.application lookup))).sendUp
      node (queryHeader name qId)).up = Function.update before.up node
        (before.up node ++ [queryHeader name qId]) := rfl
  have downHere : (((before.ask node name).setQuery node qId (some (.application lookup))).sendUp
      node (queryHeader name qId)).down = before.down := rfl
  constructor
  · intro server id peer client
    exact outstanding.clients server id peer (by simpa using client)
  · intro server id client
    simp only [Network.sendUp_service, Network.setQuery_queryClientCache, Network.ask_service]
      at client
    rw [Network.sendUp_service, Network.setQuery_queryCache, if_neg]
    · exact outstanding.relays server id client
    · rintro ⟨rfl, rfl⟩
      exact client (client_of_idle idle)
  · intro server none id
    simpa using outstanding.top server none id
  · intro other server otherAbove id
    have total := outstanding.balance other server otherAbove id
    have kept : records ((((before.ask node name).setQuery node qId
        (some (.application lookup))).sendUp node (queryHeader name qId)).service server) id other =
          records (before.service server) id other := by
      simp [records]
    rw [kept, upHere, downHere]
    by_cases here : other = node ∧ id = qId
    · obtain ⟨rfl, rfl⟩ := here
      rw [above, Option.some.injEq] at otherAbove
      subst otherAbove
      rw [Function.update_self, asking_append, unsent, unanswered]
      simp [records, unnoted, awaits, Network.setQuery_queryCache, queryHeader]
    · have waits : awaits ((((before.ask node name).setQuery node qId
          (some (.application lookup))).sendUp node (queryHeader name qId)).service other) id =
            awaits (before.service other) id := by
        refine awaits_congr (by simp) ?_
        rw [Network.sendUp_service, Network.setQuery_queryCache, if_neg here]
        rfl
      rw [waits, ← total]
      by_cases same : other = node
      · subst same
        have different : ¬ qId = id := fun equal => here ⟨rfl, equal.symm⟩
        rw [Function.update_self, asking_append]
        simp [queryHeader, different]
      · rw [Function.update_of_ne same]
  · intro other header inside query
    rw [upHere] at inside
    by_cases same : other = node
    · subst same
      rw [Function.update_self] at inside
      rcases List.mem_append.mp inside with old | new
      · exact outstanding.up other header old query
      · rw [List.mem_singleton.mp new]
        exact named.symm
    · rw [Function.update_of_ne same] at inside
      exact outstanding.up other header inside query
  · exact outstanding.down
  · intro other server otherAbove id client
    exact outstanding.noted other server otherAbove id (by simpa using client)
  · intro other none
    have apart : other ≠ node := by
      rintro rfl
      rw [above] at none
      cases none
    rw [upHere, downHere, Function.update_of_ne apart]
    exact outstanding.sent other none

/-- The queues and the tables once a superior has forwarded the query of a node. -/
structure Forwards (before next : Network Node) (node superior : Node) (index : ℕ)
    (header : CNRSHeader) : Prop where
  upNode : next.up node = (before.up node).eraseIdx index
  upSuperior : next.up superior =
    before.up superior ++ [queryHeader header.cuid header.queryId]
  upElse : ∀ other, other ≠ node → other ≠ superior → next.up other = before.up other
  down : next.down = before.down
  clients : ∀ other id, (next.service other).queryClientCache id =
    if other = superior ∧ id = header.queryId then some node
    else (before.service other).queryClientCache id
  queries : ∀ other id, (next.service other).queryCache id =
    if other = superior ∧ id = header.queryId then some .queryResponse
    else (before.service other).queryCache id

variable (before) in
theorem forwards {node superior : Node} (index : ℕ) (header : CNRSHeader)
    (apart : node ≠ superior) :
    Forwards before (((before.takeUp node index).recorded superior header.queryId node).sendUp
      superior (queryHeader header.cuid header.queryId)) node superior index header where
  upNode := (forwarded_up apart node).trans (if_pos rfl)
  upSuperior := (forwarded_up apart superior).trans (by simp [apart.symm])
  upElse other notNode notSuperior :=
    (forwarded_up apart other).trans (by simp [notNode, notSuperior])
  down := rfl
  clients := forwarded_clients
  queries := forwarded_queries

section Forwards

variable {node superior : Node} {index : ℕ} {header : CNRSHeader}
  (moved : Forwards before after node superior index header)

include moved

theorem Forwards.awaits_kept {other : Node} {id : QueryId}
    (elsewhere : ¬ (other = superior ∧ id = header.queryId)) :
    awaits (after.service other) id = awaits (before.service other) id :=
  awaits_congr ((moved.clients other id).trans (if_neg elsewhere))
    ((moved.queries other id).trans (if_neg elsewhere))

theorem Forwards.records_kept {other server : Node} {id : QueryId}
    (idle : awaits (before.service superior) header.queryId = false) (apart : other ≠ node) :
    records (after.service server) id other = records (before.service server) id other := by
  rw [records, records, moved.clients]
  split
  · rename_i here
    rw [here.1, here.2, client_of_idle idle]
    simp [apart.symm]
  · rfl

theorem Forwards.balance (tree : hierarchy.Tree)
    (outstanding : Outstanding hierarchy asked before)
    (above : hierarchy.superior node = some superior)
    (found : (before.up node)[index]? = some header) (query : header.method = .query)
    (idle : awaits (before.service superior) header.queryId = false)
    {other server : Node} (otherAbove : hierarchy.superior other = some server) (id : QueryId) :
    asking (after.up other) id + answering (after.down other) id +
      records (after.service server) id other =
        (awaits (after.service other) id).toNat := by
  have total := outstanding.balance other server otherAbove id
  rw [moved.down]
  by_cases sender : other = node
  · subst sender
    rw [above, Option.some.injEq] at otherAbove
    subst otherAbove
    have apart : other ≠ superior := by
      rintro rfl
      exact tree.notSelf _ above
    rw [moved.awaits_kept fun both => apart both.1, moved.upNode, ← total, ← asking_taken found id]
    by_cases same : header.queryId = id
    · subst same
      simp only [records, moved.clients, client_of_idle idle, query]
      simp
      omega
    · have different : ¬ id = header.queryId := fun equal => same equal.symm
      simp [records, moved.clients, different, same]
  · rw [moved.records_kept idle sender]
    by_cases receiver : other = superior
    · subst receiver
      obtain ⟨unsent, unanswered, unnoted⟩ := outstanding.unasked otherAbove idle
      rw [moved.upSuperior, asking_append]
      by_cases same : id = header.queryId
      · subst same
        rw [unsent, unanswered]
        simp [records, unnoted, awaits, moved.clients, queryHeader]
      · have different : ¬ header.queryId = id := fun equal => same equal.symm
        rw [moved.awaits_kept fun both => same both.2]
        simpa [queryHeader, different] using total
    · rw [moved.awaits_kept fun both => receiver both.1, moved.upElse other sender receiver, ← total]

theorem Forwards.up (outstanding : Outstanding hierarchy asked before)
    (named : asked superior header.queryId = header.cuid) {other : Node} {message : CNRSHeader}
    (inside : message ∈ after.up other) (asks : message.method = .query) :
    message.cuid = asked other message.queryId := by
  by_cases sender : other = node
  · subst sender
    rw [moved.upNode] at inside
    exact outstanding.up other message (List.mem_of_mem_eraseIdx inside) asks
  · by_cases receiver : other = superior
    · subst receiver
      rw [moved.upSuperior] at inside
      rcases List.mem_append.mp inside with old | new
      · exact outstanding.up other message old asks
      · rw [List.mem_singleton.mp new]
        exact named.symm
    · rw [moved.upElse other sender receiver] at inside
      exact outstanding.up other message inside asks

end Forwards

theorem Outstanding.queryForwarded (tree : hierarchy.Tree)
    (outstanding : Outstanding hierarchy asked before) {node superior further : Node}
    {index : ℕ} {header : CNRSHeader} (above : hierarchy.superior node = some superior)
    (found : (before.up node)[index]? = some header) (query : header.method = .query)
    (beyond : hierarchy.superior superior = some further)
    (idle : awaits (before.service superior) header.queryId = false)
    (named : asked superior header.queryId = header.cuid) :
    Outstanding hierarchy asked
      (((before.takeUp node index).recorded superior header.queryId node).sendUp superior
        (queryHeader header.cuid header.queryId)) := by
  have apart : node ≠ superior := by
    rintro rfl
    exact tree.notSelf _ above
  have moved := forwards before index header apart
  constructor
  · intro server id peer known
    rw [moved.clients] at known
    split at known
    · rename_i here
      rw [← Option.some.inj known, here.1]
      exact above
    · exact outstanding.clients server id peer known
  · intro server id known
    rw [moved.clients] at known
    rw [moved.queries]
    split
    · rfl
    · rename_i elsewhere
      rw [if_neg elsewhere] at known
      exact outstanding.relays server id known
  · intro server none id
    rw [moved.clients, if_neg]
    · exact outstanding.top server none id
    · rintro ⟨rfl, _⟩
      rw [beyond] at none
      cases none
  · intro other server otherAbove id
    exact moved.balance tree outstanding above found query idle otherAbove id
  · intro other message inside asks
    exact moved.up outstanding named inside asks
  · exact outstanding.down
  · intro other server otherAbove id known
    rw [moved.clients] at known
    split at known
    · rename_i here
      obtain rfl := Option.some.inj known
      rw [here.1, here.2, named]
      exact outstanding.up node header (List.mem_of_getElem? found) query
    · exact outstanding.noted other server otherAbove id known
  · intro other none
    have notNode : other ≠ node := by
      rintro rfl
      rw [above] at none
      cases none
    have notSuperior : other ≠ superior := by
      rintro rfl
      rw [beyond] at none
      cases none
    rw [moved.upElse other notNode notSuperior]
    exact outstanding.sent other none

theorem Outstanding.queryHit (outstanding : Outstanding hierarchy asked before)
    {node superior : Node} {index : ℕ} {header : CNRSHeader}
    (above : hierarchy.superior node = some superior)
    (found : (before.up node)[index]? = some header) (query : header.method = .query)
    (interfaces : CybertwinInterfaceList) :
    Outstanding hierarchy asked ((before.takeUp node index).sendDown node
      (okHeader header.cuid header.queryId interfaces)) := by
  have named := outstanding.up node header (List.mem_of_getElem? found) query
  refine { outstanding with balance := ?_, up := ?_, down := ?_, sent := ?_ }
  · intro other server otherAbove id
    have total := outstanding.balance other server otherAbove id
    by_cases same : other = node
    · subst same
      rw [← asking_taken found id] at total
      simp only [Network.takeUp, Network.sendDown, Function.update_self, answering_append]
      simp only [query, true_and] at total
      change asking ((before.up other).eraseIdx index) id + (answering (before.down other) id +
        if header.queryId = id then 1 else 0) + records (before.service server) id other = _
      rw [← total]
      omega
    · simpa [Network.takeUp, Network.sendDown, same] using total
  · intro other message inside asks
    refine outstanding.up other message ?_ asks
    by_cases same : other = node
    · subst same
      simp only [Network.takeUp, Network.sendDown, Function.update_self] at inside
      exact List.mem_of_mem_eraseIdx inside
    · simpa [Network.takeUp, Network.sendDown, same] using inside
  · intro other message inside
    by_cases same : other = node
    · subst same
      simp only [Network.takeUp, Network.sendDown, Function.update_self] at inside
      rcases List.mem_append.mp inside with old | new
      · exact outstanding.down other message old
      · rw [List.mem_singleton.mp new]
        exact ⟨Or.inl rfl, named⟩
    · refine outstanding.down other message ?_
      simpa [Network.takeUp, Network.sendDown, same] using inside
  · intro other none
    have apart : other ≠ node := by
      rintro rfl
      rw [above] at none
      cases none
    simpa [Network.takeUp, Network.sendDown, apart] using outstanding.sent other none

-- What a node waits for in the response that it reads.
theorem Outstanding.awaited (outstanding : Outstanding hierarchy asked before) {node : Node}
    {index : ℕ} {header : CNRSHeader} (found : (before.down node)[index]? = some header) :
    (∃ superior, hierarchy.superior node = some superior) ∧
      awaits (before.service node) header.queryId = true := by
  cases above : hierarchy.superior node with
  | none =>
      rw [(outstanding.sent node above).2] at found
      cases found
  | some superior =>
      refine ⟨⟨superior, rfl⟩, ?_⟩
      have total := outstanding.balance node superior above header.queryId
      rw [← answering_taken found, if_pos rfl] at total
      cases waits : awaits (before.service node) header.queryId with
      | true => rfl
      | false =>
          rw [waits, Bool.toNat_false] at total
          omega

/-- The queues and the tables once a node has passed a response on to the sub-node that asked. -/
structure PassesOn (before next : Network Node) (node peer : Node) (index : ℕ)
    (header reply : CNRSHeader) : Prop where
  up : next.up = before.up
  downNode : next.down node = (before.down node).eraseIdx index
  downPeer : next.down peer = before.down peer ++ [reply]
  downElse : ∀ other, other ≠ node → other ≠ peer → next.down other = before.down other
  clients : ∀ other id, (next.service other).queryClientCache id =
    if other = node ∧ id = header.queryId then none
    else (before.service other).queryClientCache id
  queries : ∀ other, (next.service other).queryCache = (before.service other).queryCache

variable (before) in
theorem passesOn {node peer : Node} (index : ℕ) (header reply : CNRSHeader) (apart : peer ≠ node) :
    PassesOn before ((((before.takeDown node index).learned node header).setClient node
      header.queryId none).sendDown peer reply) node peer index header reply where
  up := by simp [Network.sendDown, Network.setClient, Network.setService, Network.takeDown]
  downNode := (relayed_down apart node).trans (if_pos rfl)
  downPeer := (relayed_down apart peer).trans (by simp [apart])
  downElse other notNode notPeer := (relayed_down apart other).trans (by simp [notNode, notPeer])
  clients := relayed_clients
  queries _ := by simp

section PassesOn

variable {node peer : Node} {index : ℕ} {header reply : CNRSHeader}
  (moved : PassesOn before after node peer index header reply)

include moved

theorem PassesOn.awaits_kept {other : Node} {id : QueryId}
    (elsewhere : ¬ (other = node ∧ id = header.queryId)) :
    awaits (after.service other) id = awaits (before.service other) id :=
  awaits_congr ((moved.clients other id).trans (if_neg elsewhere)) (by rw [moved.queries])

theorem PassesOn.records_kept {other server : Node} {id : QueryId}
    (client : (before.service node).queryClientCache header.queryId = some peer)
    (apart : other ≠ peer) :
    records (after.service server) id other = records (before.service server) id other := by
  rw [records, records, moved.clients]
  split
  · rename_i here
    rw [here.1, here.2, client]
    simp [apart.symm]
  · rfl

theorem PassesOn.balance (tree : hierarchy.Tree) (outstanding : Outstanding hierarchy asked before)
    (found : (before.down node)[index]? = some header) (numbered : reply.queryId = header.queryId)
    (client : (before.service node).queryClientCache header.queryId = some peer)
    {other server : Node} (otherAbove : hierarchy.superior other = some server) (id : QueryId) :
    asking (after.up other) id + answering (after.down other) id +
      records (after.service server) id other =
        (awaits (after.service other) id).toNat := by
  have below := outstanding.clients node header.queryId peer client
  have total := outstanding.balance other server otherAbove id
  rw [moved.up]
  by_cases receiver : other = node
  · subst receiver
    have apart : other ≠ peer := by
      rintro rfl
      exact tree.notSelf _ below
    rw [moved.records_kept client apart, moved.downNode]
    rw [← answering_taken found] at total
    by_cases same : id = header.queryId
    · subst same
      have relay := outstanding.relays other header.queryId (by rw [client]; simp)
      have waited : awaits (before.service other) header.queryId = true := by
        simp [awaits, client]
      have idle : awaits (after.service other) header.queryId = false := by
        simp [awaits, moved.clients, moved.queries, relay]
      rw [waited, if_pos rfl, Bool.toNat_true] at total
      rw [idle, Bool.toNat_false]
      omega
    · have different : ¬ header.queryId = id := fun equal => same equal.symm
      rw [moved.awaits_kept fun both => same both.2]
      simpa [different] using total
  · rw [moved.awaits_kept fun both => receiver both.1, ← total]
    by_cases asker : other = peer
    · subst asker
      rw [below, Option.some.injEq] at otherAbove
      subst otherAbove
      rw [moved.downPeer, answering_append, numbered]
      by_cases same : id = header.queryId
      · subst same
        simp [records, moved.clients, client]
        omega
      · have different : ¬ header.queryId = id := fun equal => same equal.symm
        simp [records, moved.clients, same, different]
    · rw [moved.downElse other receiver asker, moved.records_kept client asker]

theorem PassesOn.down (outstanding : Outstanding hierarchy asked before)
    (answers : IsResponse reply ∧ reply.cuid = asked peer reply.queryId) {other : Node}
    {message : CNRSHeader} (inside : message ∈ after.down other) :
    IsResponse message ∧ message.cuid = asked other message.queryId := by
  by_cases receiver : other = node
  · subst receiver
    rw [moved.downNode] at inside
    exact outstanding.down other message (List.mem_of_mem_eraseIdx inside)
  · by_cases asker : other = peer
    · subst asker
      rw [moved.downPeer] at inside
      rcases List.mem_append.mp inside with old | new
      · exact outstanding.down other message old
      · rw [List.mem_singleton.mp new]
        exact answers
    · rw [moved.downElse other receiver asker] at inside
      exact outstanding.down other message inside

end PassesOn

theorem Outstanding.relayed (tree : hierarchy.Tree)
    (outstanding : Outstanding hierarchy asked before) {node peer : Node} {index : ℕ}
    {header : CNRSHeader} (found : (before.down node)[index]? = some header)
    (client : (before.service node).queryClientCache header.queryId = some peer) :
    Outstanding hierarchy asked
      ((((before.takeDown node index).learned node header).setClient node header.queryId
        none).sendDown peer (responseHeader header.cuid header.queryId (answer header))) := by
  obtain ⟨response, named, numbered, _⟩ :=
    responseHeader_spec header.cuid header.queryId (answer header)
  generalize responseHeader header.cuid header.queryId (answer header) = reply at *
  have below := outstanding.clients node header.queryId peer client
  have apart : peer ≠ node := by
    rintro rfl
    exact tree.notSelf _ below
  have moved := passesOn before index header reply apart
  have answers : IsResponse reply ∧ reply.cuid = asked peer reply.queryId := by
    rw [named, numbered, ← outstanding.noted peer node below header.queryId client]
    exact ⟨response, (outstanding.down node header (List.mem_of_getElem? found)).2⟩
  constructor
  · intro server id asker known
    rw [moved.clients] at known
    split at known
    · cases known
    · exact outstanding.clients server id asker known
  · intro server id known
    rw [moved.clients] at known
    rw [moved.queries]
    split at known
    · exact absurd rfl known
    · exact outstanding.relays server id known
  · intro server none id
    rw [moved.clients]
    split
    · rfl
    · exact outstanding.top server none id
  · intro other server otherAbove id
    exact moved.balance tree outstanding found numbered client otherAbove id
  · rw [moved.up]
    exact outstanding.up
  · intro other message inside
    exact moved.down outstanding answers inside
  · intro other server otherAbove id known
    rw [moved.clients] at known
    split at known
    · cases known
    · exact outstanding.noted other server otherAbove id known
  · intro other none
    have notPeer : other ≠ peer := by
      rintro rfl
      rw [below] at none
      cases none
    have notNode : other ≠ node := by
      rintro rfl
      have := (outstanding.awaited found).1
      rw [none] at this
      obtain ⟨superior, above⟩ := this
      cases above
    rw [moved.up, moved.downElse other notNode notPeer]
    exact outstanding.sent other none

theorem Outstanding.called (outstanding : Outstanding hierarchy asked before) {node : Node}
    {index lookup : ℕ} {header : CNRSHeader} (found : (before.down node)[index]? = some header)
    (noClient : (before.service node).queryClientCache header.queryId = none) :
    Outstanding hierarchy asked
      ((((before.takeDown node index).learned node header).setQuery node header.queryId
        none).call lookup header.cuid (answer header)) := by
  let next := (((before.takeDown node index).learned node header).setQuery node header.queryId
    none).call lookup header.cuid (answer header)
  have up : next.up = before.up := by
    simp [next, Network.call, Network.setQuery, Network.setService, Network.takeDown]
  have downNode : next.down node = (before.down node).eraseIdx index := by
    simp [next, Network.call, Network.setQuery, Network.setService, Network.takeDown]
  have downElse : ∀ other, other ≠ node → next.down other = before.down other := by
    intro other distinct
    simp [next, Network.call, Network.setQuery, Network.setService, Network.takeDown, distinct]
  have clients : ∀ other, (next.service other).queryClientCache =
      (before.service other).queryClientCache := by
    intro other
    simp [next]
  have queries : ∀ other id, (next.service other).queryCache id =
      if other = node ∧ id = header.queryId then none
      else (before.service other).queryCache id := by
    intro other id
    rw [Network.call_service, Network.setQuery_queryCache, Network.learned_queryCache,
      Network.takeDown_service]
  obtain ⟨⟨superior, above⟩, waited⟩ := outstanding.awaited found
  constructor
  · intro server id peer known
    rw [clients] at known
    exact outstanding.clients server id peer known
  · intro server id known
    rw [clients] at known
    rw [queries, if_neg]
    · exact outstanding.relays server id known
    · rintro ⟨rfl, rfl⟩
      exact known noClient
  · intro server none id
    rw [clients]
    exact outstanding.top server none id
  · intro other server otherAbove id
    have total := outstanding.balance other server otherAbove id
    have kept : records (next.service server) id other =
        records (before.service server) id other := by
      rw [records, records, clients]
    change asking (next.up other) id + answering (next.down other) id +
      records (next.service server) id other = (awaits (next.service other) id).toNat
    rw [up, kept]
    by_cases here : other = node ∧ id = header.queryId
    · obtain ⟨rfl, rfl⟩ := here
      have idle : awaits (next.service other) header.queryId = false := by
        simp [awaits, clients, queries, noClient]
      rw [waited, ← answering_taken found, if_pos rfl, Bool.toNat_true] at total
      rw [idle, downNode, Bool.toNat_false]
      omega
    · have same : awaits (next.service other) id = awaits (before.service other) id :=
        awaits_congr (by rw [clients]) ((queries other id).trans (if_neg here))
      rw [same, ← total]
      by_cases receiver : other = node
      · subst receiver
        have different : ¬ header.queryId = id := fun equal => here ⟨rfl, equal.symm⟩
        have taken := answering_taken found id
        rw [if_neg different, Nat.add_zero] at taken
        rw [downNode, taken]
      · rw [downElse other receiver]
  · rw [show ((((before.takeDown node index).learned node header).setQuery node header.queryId
      none).call lookup header.cuid (answer header)).up = before.up from up]
    exact outstanding.up
  · intro other message inside
    change message ∈ next.down other at inside
    by_cases receiver : other = node
    · subst receiver
      rw [downNode] at inside
      exact outstanding.down other message (List.mem_of_mem_eraseIdx inside)
    · rw [downElse other receiver] at inside
      exact outstanding.down other message inside
  · intro other server otherAbove id known
    change (next.service server).queryClientCache id = some other at known
    rw [clients] at known
    exact outstanding.noted other server otherAbove id known
  · intro other none
    have notNode : other ≠ node := by
      rintro rfl
      rw [above] at none
      cases none
    change next.up other = [] ∧ next.down other = []
    rw [up, downElse other notNode]
    exact outstanding.sent other none

theorem Outstanding.lookupFailed (outstanding : Outstanding hierarchy asked before)
    {node : Node} (top : hierarchy.superior node = none) (name : Name) (qId : QueryId)
    (lookup : ℕ) :
    Outstanding hierarchy asked
      (((before.ask node name).setQuery node qId (some (.application lookup))).call lookup name
        []) := by
  have clients : ∀ other, ((((before.ask node name).setQuery node qId
      (some (.application lookup))).call lookup name []).service other).queryClientCache =
        (before.service other).queryClientCache := by
    intro other
    simp
  have queries : ∀ other id, other ≠ node → ((((before.ask node name).setQuery node qId
      (some (.application lookup))).call lookup name []).service other).queryCache id =
        (before.service other).queryCache id := by
    intro other id distinct
    rw [Network.call_service, Network.setQuery_queryCache, if_neg fun both => distinct both.1]
    rfl
  refine { outstanding with clients := ?_, relays := ?_, top := ?_, balance := ?_, noted := ?_ }
  · intro server id peer known
    rw [clients] at known
    exact outstanding.clients server id peer known
  · intro server id known
    rw [clients] at known
    have distinct : server ≠ node := by
      rintro rfl
      exact known (outstanding.top server top id)
    rw [queries server id distinct]
    exact outstanding.relays server id known
  · intro server none id
    rw [clients]
    exact outstanding.top server none id
  · intro other server otherAbove id
    have distinct : other ≠ node := by
      rintro rfl
      rw [top] at otherAbove
      cases otherAbove
    rw [awaits_congr (congrFun (clients other) id) (queries other id distinct), records, clients]
    exact outstanding.balance other server otherAbove id
  · intro other server otherAbove id known
    rw [clients] at known
    exact outstanding.noted other server otherAbove id known

end FISim.NameResolution
