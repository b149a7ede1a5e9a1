import FISim.NameResolution.Moves

/-!
The services against one map of all names.  While each call waits until nothing
is on its way, an insert climbs from its node alone, and the entries elsewhere
stay as they are.
-/

namespace FISim.NameResolution

open Transition Chain

variable {Node : Type} [DecidableEq Node]

/-- One map that inserts overwrite and lookups read. -/
structure Directory where
  entry : Name → Option CybertwinInterfaceList := fun _ => none
  answers : List (Name × Option CybertwinInterfaceList) := []

def Directory.step (directory : Directory) : Action Node → Directory
  | .insert _ name interfaces =>
      { directory with entry := Function.update directory.entry name (some interfaces) }
  | .lookup _ name _ =>
      { directory with answers := directory.answers ++ [(name, directory.entry name)] }
  | _ => directory

def directory (actions : List (Action Node)) : Directory :=
  actions.foldl Directory.step {}

/-- The messages of a call are delivered before the next call is made. -/
def Serial (before : Network Node) : Action Node → Prop
  | .insert _ _ _ | .lookup _ _ _ => Quiet before
  | .loseUp _ _ | .loseDown _ _ => False
  | _ => True

/-- Whoever has another list for the name is the inserting node or one of its superiors. -/
def Upward (hierarchy : Hierarchy Node) (before : Network Node) : Action Node → Prop
  | .insert node name interfaces => ∀ other held,
      (before.service other).itemCache name = some held → held ≠ interfaces →
        Above hierarchy.superior node other
  | _ => True

/-- A call has the name of its lookup and, where it resolves the name, the list of the map. -/
def Faithful (net : Network Node) (map : Directory) : Prop :=
  ∀ call ∈ net.called, ∃ latest, map.answers[call.lookup]? = some (call.name, latest) ∧
    (call.interfaces = [] ∨ latest = some call.interfaces)

def Agrees (net : Network Node) (map : Directory) : Prop :=
  ∀ node name held, (net.service node).itemCache name = some held → map.entry name = some held

-- Of the chain of the node only what is further on may still have another list.
structure Climbing (hierarchy : Hierarchy Node) (net : Network Node) (map : Directory)
    (reached : Node → Prop) (name : Name) (interfaces : CybertwinInterfaceList) : Prop where
  latest : map.entry name = some interfaces
  entries : ∀ other asked held, (net.service other).itemCache asked = some held →
    map.entry asked = some held ∨ asked = name ∧ reached other
  stop : ∀ other, reached other → (net.service other).itemCache name = some interfaces →
    Agrees net map

/-- The way back from a node to the lookup that it asks for. -/
inductive Routed (net : Network Node) (qId : QueryId) (lookup : ℕ) : Node → Prop
  | origin (node : Node) (noClient : (net.service node).queryClientCache qId = none)
      (entry : (net.service node).queryCache qId = some (.application lookup)) :
      Routed net qId lookup node
  | relay (node peer : Node) (client : (net.service node).queryClientCache qId = some peer)
      (further : Routed net qId lookup peer) : Routed net qId lookup node

def only {Item : Type} (node : Node) (item : Item) : Node → List Item :=
  Function.update (fun _ => []) node [item]

def nothing {Item : Type} : Node → List Item := fun _ => []

structure Traffic (net : Network Node) (reports : Node → List (Name × CybertwinInterfaceList))
    (up down : Node → List CNRSHeader) : Prop where
  reports : net.reports = reports
  up : net.up = up
  down : net.down = down

/-- What is on its way: at most one message, which belongs to the last call. -/
inductive Phase (hierarchy : Hierarchy Node) (net : Network Node) (map : Directory) : Prop
  | quiet (traffic : Traffic net nothing nothing nothing) (agrees : Agrees net map)
  | reporting (node : Node) (name : Name) (interfaces : CybertwinInterfaceList)
      (traffic : Traffic net (only node (name, interfaces)) nothing nothing)
      (climbing : Climbing hierarchy net map (Beyond hierarchy.superior node) name interfaces)
  | inserting (node : Node) (header : CNRSHeader) (insert : header.method = .insert)
      (traffic : Traffic net nothing (only node header) nothing)
      (climbing : Climbing hierarchy net map (Beyond hierarchy.superior node) header.cuid
        header.interfaceList)
  | asking (node : Node) (header : CNRSHeader) (lookup : ℕ) (query : header.method = .query)
      (traffic : Traffic net nothing (only node header) nothing) (agrees : Agrees net map)
      (made : map.answers[lookup]? = some (header.cuid, map.entry header.cuid))
      (routed : Routed net header.queryId lookup node)
  | answering (node : Node) (header : CNRSHeader) (lookup : ℕ) (response : IsResponse header)
      (traffic : Traffic net nothing nothing (only node header)) (agrees : Agrees net map)
      (right : header.method = .queryOk → map.entry header.cuid = some header.interfaceList)
      (made : map.answers[lookup]? = some (header.cuid, map.entry header.cuid))
      (routed : Routed net header.queryId lookup node)

structure Sound (hierarchy : Hierarchy Node) (net : Network Node) (map : Directory) : Prop where
  clients : Clients hierarchy net
  relays : Relays net
  phase : Phase hierarchy net map
  lookups : map.answers.length = net.lookups.length
  faithful : Faithful net map

variable {hierarchy : Hierarchy Node} {before after : Network Node} {map : Directory}

omit [DecidableEq Node] in
theorem directory_concat (actions : List (Action Node)) (action : Action Node) :
    directory (actions ++ [action]) = (directory actions).step action := by
  simp [directory]

theorem only_found {Item : Type} {node other : Node} {item found : Item} {index : ℕ}
    (inside : (only node item other)[index]? = some found) :
    other = node ∧ index = 0 ∧ found = item := by
  by_cases same : other = node
  · subst same
    rw [only, Function.update_self, List.getElem?_singleton] at inside
    split at inside
    · rename_i first
      exact ⟨rfl, first, (Option.some.inj inside).symm⟩
    · cases inside
  · rw [only, Function.update_of_ne same] at inside
    cases inside

theorem only_erased {Item : Type} (node : Node) (item : Item) :
    Function.update (only node item) node ((only node item node).eraseIdx 0) = nothing := by
  funext other
  by_cases same : other = node
  · subst same
    simp [only, nothing]
  · simp [only, nothing, same]

theorem nothing_added {Item : Type} (node : Node) (item : Item) :
    Function.update nothing node (nothing node ++ [item]) = only node item := rfl

omit [DecidableEq Node] in
theorem Quiet.traffic (quiet : Quiet before) : Traffic before nothing nothing nothing :=
  ⟨funext quiet.reports, funext quiet.up, funext quiet.down⟩

theorem only_ne_nothing {Item : Type} (node : Node) (item : Item) :
    only node item ≠ nothing := by
  intro same
  have here := congrFun same node
  simp [only, nothing] at here

theorem Phase.agrees_of_quiet (phase : Phase hierarchy before map) (quiet : Quiet before) :
    Agrees before map := by
  have silent := quiet.traffic
  cases phase with
  | quiet traffic agrees => exact agrees
  | asking node header lookup query traffic agrees made routed => exact agrees
  | answering node header lookup response traffic agrees right made routed => exact agrees
  | reporting node name interfaces traffic climbing =>
      exact absurd (traffic.reports.symm.trans silent.reports) (only_ne_nothing _ _)
  | inserting node header insert traffic climbing =>
      exact absurd (traffic.up.symm.trans silent.up) (only_ne_nothing _ _)

theorem Agrees.stored (agrees : Agrees before map) {node : Node} {name : Name}
    {interfaces : CybertwinInterfaceList} (latest : map.entry name = some interfaces) :
    Agrees (before.stored hierarchy node name interfaces) map := by
  intro other asked held entry
  rw [Network.stored_itemCache] at entry
  split at entry
  · rename_i here
    rw [here.2, latest, entry]
  · exact agrees other asked held entry

theorem Climbing.stored (tree : hierarchy.Tree) {node : Node} {name : Name}
    {interfaces : CybertwinInterfaceList} (silent : Traffic before nothing nothing nothing)
    (climbing : Climbing hierarchy before map (Above hierarchy.superior node) name interfaces) :
    Phase hierarchy (before.stored hierarchy node name interfaces) map := by
  have up : (before.stored hierarchy node name interfaces).up = nothing := by
    rw [Network.stored_up, silent.up]
  have down : (before.stored hierarchy node name interfaces).down = nothing := by
    rw [Network.stored_down, silent.down]
  by_cases held : (before.service node).itemCache name = some interfaces
  · have same : before.stored hierarchy node name interfaces = before := by
      rw [Network.stored, if_pos held]
    rw [same]
    exact Phase.quiet silent (climbing.stop node Relation.ReflTransGen.refl held)
  have entries : ∀ other asked list,
      ((before.stored hierarchy node name interfaces).service other).itemCache asked = some list →
        map.entry asked = some list ∨ asked = name ∧ Beyond hierarchy.superior node other := by
    intro other asked list entry
    rw [Network.stored_itemCache] at entry
    split at entry
    · rename_i here
      rw [here.2, climbing.latest, entry]
      exact Or.inl rfl
    · rename_i elsewhere
      rcases climbing.entries other asked list entry with known | ⟨rfl, above⟩
      · exact Or.inl known
      · rcases above_iff_beyond.mp above with same | beyond
        · exact absurd ⟨same, rfl⟩ elsewhere
        · exact Or.inr ⟨rfl, beyond⟩
  by_cases top : hierarchy.superior node = none
  · refine Phase.quiet ⟨?_, up, down⟩ fun other asked list entry => ?_
    · funext other
      rw [Network.stored_reports, (tree.root node).mpr top, silent.reports]
      simp [nothing]
    · rcases entries other asked list entry with known | ⟨_, beyond⟩
      · exact known
      · exact absurd beyond (not_beyond_of_end top)
  · have notRoot : hierarchy.isCNRSRoot node = false := by
      by_contra root
      exact top ((tree.root node).mp (by simpa using root))
    refine Phase.reporting node name interfaces ⟨?_, up, down⟩ ⟨climbing.latest, entries, ?_⟩
    · funext other
      rw [Network.stored_reports, silent.reports]
      by_cases same : other = node
      · subst same
        simp [only, nothing, held, notRoot]
      · simp [only, nothing, same]
    · intro other beyond entry
      have apart : other ≠ node := by
        rintro rfl
        exact not_beyond_self tree.ends _ beyond
      rw [Network.stored_itemCache, if_neg fun both => apart both.1] at entry
      have above := above_iff_beyond.mpr (Or.inr beyond)
      exact (climbing.stop other above entry).stored climbing.latest

omit [DecidableEq Node] in
theorem Climbing.start {node : Node} {name : Name} {interfaces : CybertwinInterfaceList}
    (agrees : Agrees before map)
    (upward : Upward hierarchy before (.insert node name interfaces)) :
    Climbing hierarchy before (map.step (.insert node name interfaces : Action Node))
      (Above hierarchy.superior node) name interfaces := by
  have entry : ∀ asked, (map.step (.insert node name interfaces : Action Node)).entry asked =
      if asked = name then some interfaces else map.entry asked := by
    intro asked
    simp [Directory.step, Function.update_apply]
  refine ⟨by simp [entry], fun other asked held known => ?_, fun other above known => ?_⟩
  · by_cases same : asked = name
    · subst same
      by_cases fresh : held = interfaces
      · exact Or.inl (by simp [entry, fresh])
      · exact Or.inr ⟨rfl, upward other held known fresh⟩
    · rw [entry, if_neg same]
      exact Or.inl (agrees other asked held known)
  · intro another asked held holds
    have listed := agrees another asked held holds
    by_cases same : asked = name
    · subst same
      rw [agrees other asked interfaces known, Option.some.injEq] at listed
      rw [entry, if_pos rfl, listed]
    · rw [entry, if_neg same]
      exact listed

omit [DecidableEq Node] in
theorem Climbing.next {node superior : Node} {name : Name} {interfaces : CybertwinInterfaceList}
    (above : hierarchy.superior node = some superior)
    (climbing : Climbing hierarchy before map (Beyond hierarchy.superior node) name interfaces) :
    Climbing hierarchy before map (Above hierarchy.superior superior) name interfaces := by
  have same : Beyond hierarchy.superior node = Above hierarchy.superior superior := by
    funext other
    simp [beyond_iff, above]
  rwa [same] at climbing

omit [DecidableEq Node] in
theorem Routed.congr (clients : Clients hierarchy before) {qId : QueryId} {lookup : ℕ}
    {node : Node} (routed : Routed before qId lookup node)
    (same : ∀ other, Above hierarchy.superior other node →
      (after.service other).queryClientCache qId = (before.service other).queryClientCache qId ∧
        (after.service other).queryCache qId = (before.service other).queryCache qId) :
    Routed after qId lookup node := by
  induction routed with
  | origin node noClient entry =>
      obtain ⟨sameClient, sameEntry⟩ := same node Relation.ReflTransGen.refl
      exact Routed.origin node (sameClient.trans noClient) (sameEntry.trans entry)
  | relay node peer client further ih =>
      have below := clients node qId peer client
      refine Routed.relay node peer ?_ (ih fun other above => same other (above.tail below))
      exact (same node Relation.ReflTransGen.refl).1.trans client

theorem Phase.of_report (phase : Phase hierarchy before map) {node : Node} {name : Name}
    {interfaces : CybertwinInterfaceList} {rest : List (Name × CybertwinInterfaceList)}
    (pending : before.reports node = (name, interfaces) :: rest) :
    rest = [] ∧ Traffic before (only node (name, interfaces)) nothing nothing ∧
      Climbing hierarchy before map (Beyond hierarchy.superior node) name interfaces := by
  have found : (before.reports node)[0]? = some (name, interfaces) := by simp [pending]
  cases phase with
  | reporting other asked held traffic climbing =>
      rw [traffic.reports] at found pending
      obtain ⟨rfl, _, same⟩ := only_found found
      rw [Prod.mk.injEq] at same
      obtain ⟨rfl, rfl⟩ := same
      refine ⟨?_, traffic, climbing⟩
      simpa [only, eq_comm] using pending
  | quiet traffic | inserting _ _ _ traffic | asking _ _ _ _ traffic
  | answering _ _ _ _ traffic =>
      rw [traffic.reports] at found
      cases found

theorem Phase.of_up (phase : Phase hierarchy before map) {node : Node} {index : ℕ}
    {header : CNRSHeader} (found : (before.up node)[index]? = some header) :
    index = 0 ∧ Traffic before nothing (only node header) nothing ∧
      ((header.method = .insert ∧ Climbing hierarchy before map
        (Beyond hierarchy.superior node) header.cuid header.interfaceList) ∨
      (header.method = .query ∧ Agrees before map ∧ ∃ lookup,
        map.answers[lookup]? = some (header.cuid, map.entry header.cuid) ∧
          Routed before header.queryId lookup node)) := by
  cases phase with
  | inserting other message insert traffic climbing =>
      rw [traffic.up] at found
      obtain ⟨rfl, first, rfl⟩ := only_found found
      exact ⟨first, traffic, Or.inl ⟨insert, climbing⟩⟩
  | asking other message lookup query traffic agrees made routed =>
      rw [traffic.up] at found
      obtain ⟨rfl, first, rfl⟩ := only_found found
      exact ⟨first, traffic, Or.inr ⟨query, agrees, lookup, made, routed⟩⟩
  | quiet traffic | reporting _ _ _ traffic | answering _ _ _ _ traffic =>
      rw [traffic.up] at found
      cases found

theorem Phase.of_down (phase : Phase hierarchy before map) {node : Node} {index : ℕ}
    {header : CNRSHeader} (found : (before.down node)[index]? = some header) :
    index = 0 ∧ Traffic before nothing nothing (only node header) ∧ IsResponse header ∧
      Agrees before map ∧
      (header.method = .queryOk → map.entry header.cuid = some header.interfaceList) ∧
      ∃ lookup, map.answers[lookup]? = some (header.cuid, map.entry header.cuid) ∧
        Routed before header.queryId lookup node := by
  cases phase with
  | answering other message lookup response traffic agrees right made routed =>
      rw [traffic.down] at found
      obtain ⟨rfl, first, rfl⟩ := only_found found
      exact ⟨first, traffic, response, agrees, right, lookup, made, routed⟩
  | quiet traffic | reporting _ _ _ traffic | inserting _ _ _ traffic | asking _ _ _ _ traffic =>
      rw [traffic.down] at found
      cases found

theorem Traffic.takeUp {node : Node} {header : CNRSHeader}
    (traffic : Traffic before nothing (only node header) nothing) :
    Traffic (before.takeUp node 0) nothing nothing nothing := by
  refine ⟨traffic.reports, ?_, traffic.down⟩
  rw [Network.takeUp, traffic.up]
  exact only_erased node header

theorem Traffic.takeDown {node : Node} {header : CNRSHeader}
    (traffic : Traffic before nothing nothing (only node header)) :
    Traffic (before.takeDown node 0) nothing nothing nothing := by
  refine ⟨traffic.reports, traffic.up, ?_⟩
  rw [Network.takeDown, traffic.down]
  exact only_erased node header

theorem Traffic.sendUp (silent : Traffic before nothing nothing nothing) (node : Node)
    (header : CNRSHeader) :
    Traffic (before.sendUp node header) nothing (only node header) nothing := by
  refine ⟨silent.reports, ?_, silent.down⟩
  rw [Network.sendUp, silent.up]
  exact nothing_added node header

theorem Traffic.sendDown (silent : Traffic before nothing nothing nothing) (node : Node)
    (header : CNRSHeader) :
    Traffic (before.sendDown node header) nothing nothing (only node header) := by
  refine ⟨silent.reports, silent.up, ?_⟩
  rw [Network.sendDown, silent.down]
  exact nothing_added node header

omit [DecidableEq Node] in
theorem Agrees.frame (agrees : Agrees before map) {later : Directory}
    (items : ∀ node,
      (after.service node).itemCache = (before.service node).itemCache)
    (entry : later.entry = map.entry) : Agrees after later := by
  intro node name held known
  rw [items] at known
  rw [entry]
  exact agrees node name held known

theorem Agrees.learned (agrees : Agrees before map) (node : Node) {header : CNRSHeader}
    (right : header.method = .queryOk → map.entry header.cuid = some header.interfaceList) :
    Agrees (before.learned node header) map := by
  intro other name held known
  rw [Network.learned_itemCache] at known
  split at known
  · rename_i ok
    rw [ok.2.2, right ok.1, known]
  · exact agrees other name held known

omit [DecidableEq Node] in
theorem Directory.lookup_answers (map : Directory) (node : Node) (name : Name) (qId : QueryId) :
    (map.step (.lookup node name qId : Action Node)).answers =
      map.answers ++ [(name, map.entry name)] := rfl

omit [DecidableEq Node] in
theorem Faithful.frame (faithful : Faithful before map) {later : Directory}
    (called : after.called = before.called) (grown : map.answers <+: later.answers) :
    Faithful after later := by
  intro call inside
  rw [called] at inside
  obtain ⟨latest, made, right⟩ := faithful call inside
  obtain ⟨more, same⟩ := grown
  refine ⟨latest, ?_, right⟩
  rw [← same, List.getElem?_append_left (List.getElem?_eq_some_iff.mp made).1]
  exact made

omit [DecidableEq Node] in
theorem Faithful.call (faithful : Faithful before map) {later : Directory} {lookup : ℕ}
    {name : Name} {interfaces : CybertwinInterfaceList}
    (latest : Option CybertwinInterfaceList)
    (called : after.called = before.called ++ [⟨lookup, name, interfaces⟩])
    (grown : map.answers <+: later.answers)
    (made : later.answers[lookup]? = some (name, latest))
    (right : interfaces = [] ∨ latest = some interfaces) : Faithful after later := by
  intro call inside
  rw [called] at inside
  rcases List.mem_append.mp inside with old | new
  · have kept : Faithful before later := faithful.frame rfl grown
    exact kept call old
  · rw [List.mem_singleton.mp new]
    exact ⟨latest, made, right⟩

theorem Sound.lookupHit (sound : Sound hierarchy before map) {node : Node} {name : Name}
    (qId : QueryId) {interfaces : CybertwinInterfaceList} (quiet : Quiet before)
    (hit : (before.service node).itemCache name = some interfaces) :
    let later := map.step (.lookup node name qId : Action Node)
    let next := (before.ask node name).call before.lookups.length name interfaces
    Phase hierarchy next later ∧ Faithful next later := by
  intro later next
  have agrees := sound.phase.agrees_of_quiet quiet
  have silent := quiet.traffic
  constructor
  · exact Phase.quiet ⟨silent.reports, silent.up, silent.down⟩ (agrees.frame (fun _ => rfl) rfl)
  · refine sound.faithful.call _ rfl (List.prefix_append _ _) ?_
      (Or.inr (agrees node name interfaces hit))
    rw [Directory.lookup_answers, ← sound.lookups, List.getElem?_concat_length]

theorem Sound.lookupFailed (sound : Sound hierarchy before map) (node : Node) (name : Name)
    (qId : QueryId) (quiet : Quiet before) :
    let later := map.step (.lookup node name qId : Action Node)
    let next := ((before.ask node name).setQuery node qId
      (some (.application before.lookups.length))).call before.lookups.length name []
    Phase hierarchy next later ∧ Faithful next later := by
  intro later next
  have agrees := sound.phase.agrees_of_quiet quiet
  have silent := quiet.traffic
  constructor
  · refine Phase.quiet ⟨silent.reports, silent.up, silent.down⟩ (agrees.frame (fun other => ?_) rfl)
    rw [Network.call_service, Network.setQuery_itemCache, Network.ask_service]
  · refine sound.faithful.call (map.entry name) rfl (List.prefix_append _ _) ?_ (Or.inl rfl)
    rw [Directory.lookup_answers, ← sound.lookups, List.getElem?_concat_length]

theorem Sound.lookupSent (sound : Sound hierarchy before map) {node : Node} {name : Name}
    {qId : QueryId} (quiet : Quiet before)
    (fresh : (before.service node).queryCache qId = none) :
    let later := map.step (.lookup node name qId : Action Node)
    Phase hierarchy (((before.ask node name).setQuery node qId
      (some (.application before.lookups.length))).sendUp node (queryHeader name qId)) later := by
  intro later
  have agrees := sound.phase.agrees_of_quiet quiet
  have silent := quiet.traffic
  have noClient : (before.service node).queryClientCache qId = none := by
    by_contra known
    rw [sound.relays node qId known] at fresh
    cases fresh
  refine Phase.asking node (queryHeader name qId) before.lookups.length rfl ?_ ?_ ?_ ?_
  · have ready : Traffic ((before.ask node name).setQuery node qId
        (some (.application before.lookups.length))) nothing nothing nothing :=
      ⟨silent.reports, silent.up, silent.down⟩
    exact ready.sendUp node (queryHeader name qId)
  · refine agrees.frame (fun other => ?_) rfl
    rw [Network.sendUp_service, Network.setQuery_itemCache, Network.ask_service]
  · rw [Directory.lookup_answers, ← sound.lookups, List.getElem?_concat_length]
    rfl
  · refine Routed.origin node ?_ ?_
    · rw [Network.sendUp_service, Network.setQuery_queryClientCache]
      exact noClient
    · rw [Network.sendUp_service, Network.setQuery_queryCache, if_pos ⟨rfl, rfl⟩]

theorem Sound.reported (sound : Sound hierarchy before map) {node : Node} {name : Name}
    {interfaces : CybertwinInterfaceList} {rest : List (Name × CybertwinInterfaceList)}
    (pending : before.reports node = (name, interfaces) :: rest) :
    Phase hierarchy ((before.setReports node rest).sendUp node (insertHeader name interfaces))
        map ∧
      (hierarchy.superior node = none → Phase hierarchy (before.setReports node rest) map) := by
  obtain ⟨rfl, traffic, climbing⟩ := sound.phase.of_report pending
  have silent : Traffic (before.setReports node []) nothing nothing nothing := by
    refine ⟨?_, traffic.up, traffic.down⟩
    rw [Network.setReports, traffic.reports]
    funext other
    by_cases same : other = node
    · subst same
      simp [nothing]
    · simp [only, nothing, same]
  constructor
  · exact Phase.inserting node (insertHeader name interfaces) rfl (silent.sendUp node _)
      { climbing with }
  · intro top
    refine Phase.quiet silent fun other asked held entry => ?_
    rcases climbing.entries other asked held entry with known | ⟨_, beyond⟩
    · exact known
    · exact absurd beyond (not_beyond_of_end top)

theorem Sound.insertArrived (tree : hierarchy.Tree) (sound : Sound hierarchy before map)
    {node superior : Node} {index : ℕ} {header : CNRSHeader}
    (above : hierarchy.superior node = some superior)
    (found : (before.up node)[index]? = some header) (insert : header.method = .insert) :
    Phase hierarchy ((before.takeUp node index).stored hierarchy superior header.cuid
      header.interfaceList) map := by
  obtain ⟨rfl, traffic, ⟨_, climbing⟩ | ⟨query, _⟩⟩ := sound.phase.of_up found
  · have taken : Climbing hierarchy (before.takeUp node 0) map
        (Beyond hierarchy.superior node) header.cuid header.interfaceList := { climbing with }
    exact (taken.next above).stored tree traffic.takeUp
  · rw [insert] at query
    cases query

theorem Phase.of_query (phase : Phase hierarchy before map) {node : Node} {index : ℕ}
    {header : CNRSHeader} (found : (before.up node)[index]? = some header)
    (query : header.method = .query) :
    index = 0 ∧ Traffic before nothing (only node header) nothing ∧ Agrees before map ∧
      ∃ lookup, map.answers[lookup]? = some (header.cuid, map.entry header.cuid) ∧
        Routed before header.queryId lookup node := by
  obtain ⟨first, traffic, ⟨insert, _⟩ | ⟨_, rest⟩⟩ := phase.of_up found
  · rw [query] at insert
    cases insert
  · exact ⟨first, traffic, rest⟩

theorem Sound.queryHit (sound : Sound hierarchy before map) {node superior : Node} {index : ℕ}
    {header : CNRSHeader} {interfaces : CybertwinInterfaceList}
    (found : (before.up node)[index]? = some header) (query : header.method = .query)
    (hit : (before.service superior).itemCache header.cuid = some interfaces) :
    Phase hierarchy ((before.takeUp node index).sendDown node
      (okHeader header.cuid header.queryId interfaces)) map := by
  obtain ⟨rfl, traffic, agrees, lookup, made, routed⟩ := sound.phase.of_query found query
  refine Phase.answering node _ lookup (Or.inl rfl) (traffic.takeUp.sendDown node _) ?_ ?_ made ?_
  · exact agrees
  · exact fun _ => agrees superior header.cuid interfaces hit
  · exact routed.congr sound.clients fun _ _ => ⟨rfl, rfl⟩

theorem Sound.queryForwarded (tree : hierarchy.Tree) (sound : Sound hierarchy before map)
    {node superior : Node} {index : ℕ} {header : CNRSHeader}
    (above : hierarchy.superior node = some superior)
    (found : (before.up node)[index]? = some header) (query : header.method = .query) :
    Phase hierarchy (((before.takeUp node index).recorded superior header.queryId node).sendUp
        superior (queryHeader header.cuid header.queryId)) map := by
  obtain ⟨rfl, traffic, agrees, lookup, made, routed⟩ := sound.phase.of_query found query
  have silent : Traffic ((before.takeUp node 0).recorded superior header.queryId node)
      nothing nothing nothing :=
    ⟨traffic.takeUp.reports, traffic.takeUp.up, traffic.takeUp.down⟩
  have kept : Agrees ((before.takeUp node 0).recorded superior header.queryId node) map :=
    agrees.frame (fun other => Network.recorded_itemCache _ _ _ _ _) rfl
  refine Phase.asking superior _ lookup rfl (silent.sendUp superior _) kept made ?_
  refine Routed.relay superior node ?_ ?_
  · exact (forwarded_clients superior header.queryId).trans (if_pos ⟨rfl, rfl⟩)
  · refine routed.congr sound.clients fun other below => ?_
    have apart : ¬ (other = superior ∧ header.queryId = header.queryId) := by
      rintro ⟨rfl, _⟩
      exact below.not_below tree.ends above
    exact ⟨(forwarded_clients other header.queryId).trans (if_neg apart),
      (forwarded_queries other header.queryId).trans (if_neg apart)⟩

omit [DecidableEq Node] in
theorem Routed.entry_of_unknown {qId : QueryId} {lookup : ℕ} {node : Node}
    (routed : Routed before qId lookup node)
    (noClient : (before.service node).queryClientCache qId = none) :
    (before.service node).queryCache qId = some (.application lookup) := by
  cases routed with
  | origin _ free entry => exact entry
  | relay _ peer client further =>
      rw [noClient] at client
      cases client

omit [DecidableEq Node] in
theorem Routed.of_client {qId : QueryId} {lookup : ℕ} {node peer : Node}
    (routed : Routed before qId lookup node)
    (client : (before.service node).queryClientCache qId = some peer) :
    Routed before qId lookup peer := by
  cases routed with
  | origin _ noClient entry =>
      rw [noClient] at client
      cases client
  | relay _ other known further =>
      rw [known, Option.some.injEq] at client
      exact client ▸ further

theorem Sound.relayed (tree : hierarchy.Tree) (sound : Sound hierarchy before map)
    {node peer : Node} {index : ℕ} {header : CNRSHeader}
    (found : (before.down node)[index]? = some header)
    (client : (before.service node).queryClientCache header.queryId = some peer) :
    Phase hierarchy ((((before.takeDown node index).learned node header).setClient node
      header.queryId none).sendDown peer
        (responseHeader header.cuid header.queryId (answer header))) map := by
  obtain ⟨rfl, traffic, response, agrees, right, lookup, made, routed⟩ :=
    sound.phase.of_down found
  obtain ⟨replied, named, numbered, carried⟩ :=
    responseHeader_spec header.cuid header.queryId (answer header)
  have below := sound.clients node header.queryId peer client
  have silent : Traffic (((before.takeDown node 0).learned node header).setClient node
      header.queryId none) nothing nothing nothing := by
    refine ⟨?_, ?_, ?_⟩
    · exact (Network.learned_reports _ _ _).trans traffic.takeDown.reports
    · exact (Network.learned_up _ _ _).trans traffic.takeDown.up
    · exact (Network.learned_down _ _ _).trans traffic.takeDown.down
  have kept : Agrees (before.takeDown node 0) map := agrees
  refine Phase.answering peer _ lookup replied (silent.sendDown peer _) ?_ ?_ ?_ ?_
  · refine (kept.learned node right).frame (fun other => ?_) rfl
    rw [Network.sendDown_service, Network.setClient_itemCache]
  · intro ok
    rw [answer, if_pos ok] at carried
    by_cases hit : header.method = .queryOk
    · rw [named, carried, answer, if_pos hit]
      exact right hit
    · rw [answer, if_neg hit] at ok
      cases ok
  · rw [named]
    exact made
  · rw [numbered]
    refine (routed.of_client client).congr sound.clients fun other above => ?_
    have apart : ¬ (other = node ∧ header.queryId = header.queryId) := by
      rintro ⟨rfl, _⟩
      exact above.not_below tree.ends below
    refine ⟨(relayed_clients other header.queryId).trans (if_neg apart), ?_⟩
    rw [Network.sendDown_service, Network.setClient_queryCache, Network.learned_queryCache,
      Network.takeDown_service]

theorem Sound.called (sound : Sound hierarchy before map) {node : Node} {index lookup : ℕ}
    {header : CNRSHeader} (found : (before.down node)[index]? = some header)
    (noClient : (before.service node).queryClientCache header.queryId = none)
    (entry : (before.service node).queryCache header.queryId = some (.application lookup)) :
    let next := (((before.takeDown node index).learned node header).setQuery node header.queryId
      none).call lookup header.cuid (answer header)
    Phase hierarchy next map ∧ Faithful next map := by
  intro next
  obtain ⟨rfl, traffic, response, agrees, right, number, made, routed⟩ :=
    sound.phase.of_down found
  have same : number = lookup := by
    have known := routed.entry_of_unknown noClient
    rw [entry] at known
    simpa [eq_comm] using known
  subst same
  have kept : Agrees (before.takeDown node 0) map := agrees
  constructor
  · refine Phase.quiet ⟨?_, ?_, ?_⟩ ((kept.learned node right).frame (fun other => ?_) rfl)
    · exact (Network.learned_reports _ _ _).trans traffic.takeDown.reports
    · exact (Network.learned_up _ _ _).trans traffic.takeDown.up
    · exact (Network.learned_down _ _ _).trans traffic.takeDown.down
    · rw [Network.call_service, Network.setQuery_itemCache]
  · have called : next.called = before.called ++ [⟨number, header.cuid, answer header⟩] := by
      simp [next, Network.call, Network.setQuery, Network.setService, Network.takeDown]
    refine sound.faithful.call _ called List.prefix_rfl made ?_
    by_cases hit : header.method = .queryOk
    · rw [answer, if_pos hit]
      exact Or.inr (right hit)
    · rw [answer, if_neg hit]
      exact Or.inl rfl

theorem Sound.step (tree : hierarchy.Tree) (sound : Sound hierarchy before map)
    {action : Action Node} (serial : Serial before action)
    (upward : Upward hierarchy before action)
    (happened : NameResolution.step hierarchy before action = some after) :
    Sound hierarchy after (map.step action) := by
  have clients := sound.clients.step happened
  have relays := sound.relays.step happened
  have lookups := sound.lookups
  cases step_move happened with
  | insert node name interfaces =>
      have climbing := Climbing.start (sound.phase.agrees_of_quiet serial) upward
      refine ⟨clients, relays, climbing.stored tree (Quiet.traffic serial), ?_, ?_⟩
      · rwa [Network.stored_lookups]
      · exact sound.faithful.frame (Network.stored_called _ _ _ _ _) List.prefix_rfl
  | insertArrived node superior index header above found insert =>
      refine ⟨clients, relays, sound.insertArrived tree above found insert, ?_, ?_⟩
      · rwa [Network.stored_lookups]
      · exact sound.faithful.frame (Network.stored_called _ _ _ _ _) List.prefix_rfl
  | lookupHit node name qId interfaces hit =>
      obtain ⟨phase, faithful⟩ := sound.lookupHit qId serial hit
      exact ⟨clients, relays, phase, by simp [Directory.step, lookups, Network.call, Network.ask],
        faithful⟩
  | lookupSent node name qId superior miss fresh above =>
      refine ⟨clients, relays, sound.lookupSent serial fresh, ?_, ?_⟩
      · simp [Directory.step, lookups, Network.sendUp, Network.setQuery, Network.setService,
          Network.ask]
      · exact sound.faithful.frame rfl (List.prefix_append _ _)
  | lookupFailed node name qId miss fresh top =>
      obtain ⟨phase, faithful⟩ := sound.lookupFailed node name qId serial
      refine ⟨clients, relays, phase, ?_, faithful⟩
      simp [Directory.step, lookups, Network.call, Network.setQuery, Network.setService,
        Network.ask]
  | reported node superior name interfaces rest pending above fits =>
      exact ⟨clients, relays, (sound.reported pending).1, lookups,
        sound.faithful.frame rfl List.prefix_rfl⟩
  | unreported node name interfaces rest pending top =>
      exact ⟨clients, relays, (sound.reported pending).2 top, lookups,
        sound.faithful.frame rfl List.prefix_rfl⟩
  | queryHit node superior index header interfaces above found query hit fits =>
      exact ⟨clients, relays, sound.queryHit found query hit, lookups,
        sound.faithful.frame rfl List.prefix_rfl⟩
  | queryForwarded node superior further index header above found query miss beyond =>
      exact ⟨clients, relays, sound.queryForwarded tree above found query, lookups,
        sound.faithful.frame rfl List.prefix_rfl⟩
  | otherUp node superior index header above found other =>
      obtain ⟨_, _, ⟨insert, _⟩ | ⟨query, _⟩⟩ := sound.phase.of_up found
      · exact absurd insert other.2
      · exact absurd query other.1
  | relayed node peer index header found response client fits =>
      refine ⟨clients, relays, sound.relayed tree found client, ?_, ?_⟩
      · simpa [Directory.step, Network.sendDown, Network.setClient, Network.setService,
          Network.takeDown] using lookups
      · refine sound.faithful.frame ?_ List.prefix_rfl
        simp [Network.sendDown, Network.setClient, Network.setService, Network.takeDown]
  | called node index header lookup found response noClient entry =>
      obtain ⟨phase, faithful⟩ := sound.called found noClient entry
      refine ⟨clients, relays, phase, ?_, faithful⟩
      simpa [Directory.step, Network.call, Network.setQuery, Network.setService,
        Network.takeDown] using lookups
  | unknown node index header found response noClient entry =>
      obtain ⟨_, _, _, _, _, lookup, _, routed⟩ := sound.phase.of_down found
      rw [routed.entry_of_unknown noClient] at entry
      cases entry
  | otherDown node index header found other =>
      exact absurd (sound.phase.of_down found).2.2.1 other
  | lostUp | lostDown => exact serial.elim

theorem Sound.empty : Sound hierarchy {} {} where
  clients node qId peer client := by cases client
  relays node qId known := absurd rfl known
  phase := Phase.quiet ⟨rfl, rfl, rfl⟩ fun node name held entry => by cases entry
  lookups := rfl
  faithful call inside := by cases inside

/-- While every call waits for the messages of the one before and no insert leaves another list
outside its chain of superiors, lookups are answered as by one map. -/
theorem faithful_of_upward (tree : hierarchy.Tree) (actions : List (Action Node))
    (guarded : Guarded (NameResolution.step hierarchy)
      (fun net action => Serial net action ∧ Upward hierarchy net action) {} actions)
    (net : Network Node) (ran : run (NameResolution.step hierarchy) {} actions = some net) :
    Faithful net (directory actions) := by
  have sound : Sound hierarchy net (directory actions) := by
    refine run_history (fun past net => Sound hierarchy net (directory past))
      (fun past before action after sound met happened => ?_) Sound.empty guarded ran
    rw [directory_concat]
    exact sound.step tree met.1 met.2 happened
  exact sound.faithful

theorem above_pair (node : Bool) : Above pair.superior true node := by
  cases node with
  | false => exact Relation.ReflTransGen.single rfl
  | true => exact Relation.ReflTransGen.refl

def renewedRun : List (Action Bool) :=
  [.insert true 7 [(1, 80)], .report true, .deliverUp true 0, .insert true 7 [(2, 80)],
    .report true, .deliverUp true 0, .lookup true 7 1]

theorem faithful_pair : ∃ net, run (NameResolution.step pair) {} renewedRun = some net ∧
    Faithful net (directory renewedRun) := by
  refine ⟨_, rfl, faithful_of_upward pair_tree renewedRun
    ⟨⟨?_, ?_⟩, fun inserted happened => ?_⟩ _ rfl⟩
  · exact ⟨fun _ => rfl, fun _ => rfl, fun _ => rfl⟩
  · exact fun other _ _ _ => above_pair other
  obtain rfl := Option.some.inj happened
  refine ⟨⟨trivial, trivial⟩, fun reported happened => ?_⟩
  obtain rfl := Option.some.inj happened
  refine ⟨⟨trivial, trivial⟩, fun arrived happened => ?_⟩
  obtain rfl := Option.some.inj happened
  refine ⟨⟨?_, ?_⟩, fun renewed happened => ?_⟩
  · exact Quiet.of_pair ⟨rfl, rfl, rfl⟩ ⟨rfl, rfl, rfl⟩
  · exact fun other _ _ _ => above_pair other
  obtain rfl := Option.some.inj happened
  refine ⟨⟨trivial, trivial⟩, fun reported happened => ?_⟩
  obtain rfl := Option.some.inj happened
  refine ⟨⟨trivial, trivial⟩, fun arrived happened => ?_⟩
  obtain rfl := Option.some.inj happened
  exact ⟨⟨Quiet.of_pair ⟨rfl, rfl, rfl⟩ ⟨rfl, rfl, rfl⟩, trivial⟩, fun _ _ => trivial⟩

-- The root itself takes over a name that its sub-node has reported.
def movedRun : List (Action Bool) :=
  [.insert true 7 [(1, 80)], .report true, .deliverUp true 0, .insert false 7 [(2, 80)],
    .lookup true 7 1]

theorem stale_pair : Guarded (NameResolution.step pair) Serial {} movedRun ∧
    ∃ net, run (NameResolution.step pair) {} movedRun = some net ∧
      net.called = [⟨0, 7, [(1, 80)]⟩] ∧
        (directory movedRun).answers = [(7, some [(2, 80)])] ∧
          ¬ Faithful net (directory movedRun) := by
  constructor
  · refine ⟨⟨fun _ => rfl, fun _ => rfl, fun _ => rfl⟩, fun inserted happened => ?_⟩
    obtain rfl := Option.some.inj happened
    refine ⟨trivial, fun reported happened => ?_⟩
    obtain rfl := Option.some.inj happened
    refine ⟨trivial, fun arrived happened => ?_⟩
    obtain rfl := Option.some.inj happened
    refine ⟨Quiet.of_pair ⟨rfl, rfl, rfl⟩ ⟨rfl, rfl, rfl⟩, fun moved happened => ?_⟩
    obtain rfl := Option.some.inj happened
    exact ⟨Quiet.of_pair ⟨rfl, rfl, rfl⟩ ⟨rfl, rfl, rfl⟩, fun _ _ => trivial⟩
  · refine ⟨_, rfl, rfl, by decide, fun faithful => ?_⟩
    obtain ⟨latest, made, stale | right⟩ := faithful ⟨0, 7, [(1, 80)]⟩ (by decide)
    · cases stale
    · rw [right] at made
      revert made
      decide

end FISim.NameResolution
