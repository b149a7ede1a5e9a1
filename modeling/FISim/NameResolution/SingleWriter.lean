import FISim.NameResolution.Moves
import Mathlib.Data.List.Chain

/-!
A name that is inserted at one node only, in a tree whose links deliver in
order.  The entries of the writer's ancestors follow the writer's entry: what
an ancestor has held is a prefix of what the node below it has held, and the
rest is on the link between them.
-/

namespace FISim.NameResolution

open Chain Transition

variable {Node : Type} [DecidableEq Node]

def inserted (name : Name) (actions : List (Action Node)) : List CybertwinInterfaceList :=
  actions.filterMap fun action =>
    match action with
    | .insert _ asked interfaces => if asked = name then some interfaces else none
    | _ => none

-- A list that the entry holds already is not a new version of it.
def push (held : List CybertwinInterfaceList) (interfaces : CybertwinInterfaceList) :
    List CybertwinInterfaceList :=
  if held.getLast? = some interfaces then held else held ++ [interfaces]

def versions (name : Name) (actions : List (Action Node)) : List CybertwinInterfaceList :=
  (inserted name actions).foldl push []

def SingleWriter (writer : Node) (name : Name) (_before : Network Node) (action : Action Node) :
    Prop :=
  Fifo action ∧ ∀ node interfaces, action = .insert node name interfaces → node = writer

def insertOf (name : Name) (header : CNRSHeader) : Option CybertwinInterfaceList :=
  if header.method = .insert ∧ header.cuid = name then some header.interfaceList else none

def reportOf (name : Name) (report : Name × CybertwinInterfaceList) :
    Option CybertwinInterfaceList :=
  if report.1 = name then some report.2 else none

def Asks (name : Name) (header : CNRSHeader) : Prop :=
  header.method = .query ∧ header.cuid = name

/-- What is true of the network after the actions `past`; `held node` is what the entry of an
ancestor has been so far. -/
structure Following (hierarchy : Hierarchy Node) (writer : Node) (name : Name)
    (past : List (Action Node)) (net : Network Node)
    (held : Node → List CybertwinInterfaceList) : Prop where
  own : held writer = versions name past
  cache : ∀ node, Above hierarchy.superior writer node →
    (net.service node).itemCache name = (held node).getLast?
  chain : ∀ node superior, Above hierarchy.superior writer node →
    hierarchy.superior node = some superior →
      held node = held superior ++ ((net.up node).filterMap (insertOf name) ++
        (net.reports node).filterMap (reportOf name))
  distinct : (held writer).IsChain (· ≠ ·)
  queue : ∀ node, Above hierarchy.superior writer node → (net.up node).Pairwise
    fun earlier later => (insertOf name earlier).isSome = true → ¬ Asks name later
  early : ∀ node superior, Above hierarchy.superior writer node →
    hierarchy.superior node = some superior → ∀ header ∈ net.up node, Asks name header →
      held superior = []
  silent : ∀ node, Above hierarchy.superior writer node → ∀ header ∈ net.down node,
    header.cuid ≠ name
  elsewhere : ∀ node, ¬ Above hierarchy.superior writer node →
    (net.up node).filterMap (insertOf name) = [] ∧
      (net.reports node).filterMap (reportOf name) = []

omit [DecidableEq Node] in
theorem versions_snoc_insert (name : Name) (past : List (Action Node)) (node : Node)
    (interfaces : CybertwinInterfaceList) :
    versions name (past ++ [.insert node name interfaces]) =
      push (versions name past) interfaces := by
  simp [versions, inserted]

omit [DecidableEq Node] in
theorem versions_snoc_other {name : Name} {past : List (Action Node)} {action : Action Node}
    (other : ∀ node interfaces, action ≠ .insert node name interfaces) :
    versions name (past ++ [action]) = versions name past := by
  cases action with
  | insert node asked interfaces =>
      have distinct : asked ≠ name := by
        rintro rfl
        exact other node interfaces rfl
      simp [versions, inserted, distinct]
  | _ => simp [versions, inserted]

omit [DecidableEq Node] in
theorem versions_getLast? (name : Name) (actions : List (Action Node)) :
    (versions name actions).getLast? = (inserted name actions).getLast? := by
  unfold versions
  rcases List.eq_nil_or_concat (inserted name actions) with empty | ⟨init, last, split⟩
  · rw [empty]
    rfl
  · rw [split, List.concat_eq_append, List.foldl_append, List.getLast?_append]
    simp only [List.foldl_cons, List.foldl_nil, push]
    split
    · assumption
    · simp

theorem eq_cons_of_head {queue : List CNRSHeader} {header : CNRSHeader}
    (found : queue[0]? = some header) : queue = header :: queue.eraseIdx 0 := by
  cases queue with
  | nil => cases found
  | cons first rest =>
      simp only [List.getElem?_cons_zero, Option.some.injEq] at found
      rw [found]
      rfl

variable {hierarchy : Hierarchy Node} {writer : Node} {name : Name} {past : List (Action Node)}
  {net : Network Node} {held : Node → List CybertwinInterfaceList}

omit [DecidableEq Node] in
theorem Following.frame {after : Network Node} {later : List (Action Node)}
    (following : Following hierarchy writer name past net held)
    (sameVersions : versions name later = versions name past)
    (reports : after.reports = net.reports) (up : after.up = net.up)
    (down : after.down = net.down)
    (cache : ∀ node, Above hierarchy.superior writer node →
      (after.service node).itemCache name = (net.service node).itemCache name) :
    Following hierarchy writer name later after held where
  own := following.own.trans sameVersions.symm
  cache node above := (cache node above).trans (following.cache node above)
  chain := by
    rw [up, reports]
    exact following.chain
  distinct := following.distinct
  queue := by
    rw [up]
    exact following.queue
  early := by
    rw [up]
    exact following.early
  silent := by
    rw [down]
    exact following.silent
  elsewhere := by
    rw [up, reports]
    exact following.elsewhere

theorem Following.changeUp {node : Node} {queue : List CNRSHeader} {sent : List (Envelope Node)}
    (following : Following hierarchy writer name past net held)
    (inserts : queue.filterMap (insertOf name) = (net.up node).filterMap (insertOf name))
    (ordered : Above hierarchy.superior writer node → queue.Pairwise
      fun earlier later => (insertOf name earlier).isSome = true → ¬ Asks name later)
    (early : ∀ superior, Above hierarchy.superior writer node →
      hierarchy.superior node = some superior → ∀ header ∈ queue, Asks name header →
        held superior = []) :
    Following hierarchy writer name past
      { net with up := Function.update net.up node queue, sent } held where
  own := following.own
  cache := following.cache
  chain other superior above stepped := by
    by_cases same : other = node
    · subst same
      simpa [inserts] using following.chain other superior above stepped
    · simpa [same] using following.chain other superior above stepped
  distinct := following.distinct
  queue other above := by
    by_cases same : other = node
    · subst same
      simpa using ordered above
    · simpa [same] using following.queue other above
  early other superior above stepped := by
    by_cases same : other = node
    · subst same
      simpa using early superior above stepped
    · simpa [same] using following.early other superior above stepped
  silent := following.silent
  elsewhere other outside := by
    by_cases same : other = node
    · subst same
      simpa [inserts] using following.elsewhere other outside
    · simpa [same] using following.elsewhere other outside

theorem Following.takeUp {node : Node} {header : CNRSHeader}
    (following : Following hierarchy writer name past net held)
    (found : (net.up node)[0]? = some header) (plain : insertOf name header = none) :
    Following hierarchy writer name past (net.takeUp node 0) held := by
  have queue := eq_cons_of_head found
  refine following.changeUp ?_ (fun above => ?_) fun superior above stepped other inside => ?_
  · rw [queue, List.filterMap_cons_none plain]
    rfl
  · have ordered := following.queue node above
    rw [queue] at ordered
    exact ordered.of_cons
  · refine following.early node superior above stepped other ?_
    rw [queue]
    exact List.mem_cons_of_mem header inside

theorem Following.sendPlain {node superior : Node} {header : CNRSHeader}
    (following : Following hierarchy writer name past net held)
    (stepped : hierarchy.superior node = some superior) (plain : insertOf name header = none)
    (unheld : Above hierarchy.superior writer node → Asks name header → held node = []) :
    Following hierarchy writer name past (net.sendUp node header) held := by
  have nothing : Above hierarchy.superior writer node → Asks name header →
      held superior = [] ∧ (net.up node).filterMap (insertOf name) = [] := by
    intro above asks
    have chain := following.chain node superior above stepped
    rw [unheld above asks] at chain
    simp only [List.nil_eq, List.append_eq_nil_iff] at chain
    exact ⟨chain.1, chain.2.1⟩
  refine following.changeUp ?_ (fun above => ?_) fun other above otherStep later inside asks => ?_
  · rw [List.filterMap_append, List.filterMap_cons_none plain, List.filterMap_nil,
      List.append_nil]
  · rw [List.pairwise_append]
    refine ⟨following.queue node above, List.pairwise_singleton _ _, ?_⟩
    intro earlier inside later last insert asks
    rw [List.mem_singleton.mp last] at asks
    have unsent := List.filterMap_eq_nil_iff.mp (nothing above asks).2 earlier inside
    rw [unsent] at insert
    cases insert
  · rw [stepped, Option.some.injEq] at otherStep
    subst otherStep
    rcases List.mem_append.mp inside with old | new
    · exact following.early node superior above stepped later old asks
    · rw [List.mem_singleton.mp new] at asks
      exact (nothing above asks).1

theorem Following.changeDown {node : Node} {queue : List CNRSHeader}
    {sent : List (Envelope Node)} (following : Following hierarchy writer name past net held)
    (silent : Above hierarchy.superior writer node → ∀ header ∈ queue, header.cuid ≠ name) :
    Following hierarchy writer name past
      { net with down := Function.update net.down node queue, sent } held := by
  refine { following with silent := fun other above => ?_ }
  by_cases same : other = node
  · subst same
    simpa using silent above
  · simpa [same] using following.silent other above

theorem Following.sendDown {node : Node} {header : CNRSHeader}
    (following : Following hierarchy writer name past net held)
    (other : Above hierarchy.superior writer node → header.cuid ≠ name) :
    Following hierarchy writer name past (net.sendDown node header) held := by
  refine following.changeDown fun above each inside => ?_
  rcases List.mem_append.mp inside with old | new
  · exact following.silent node above each old
  · rw [List.mem_singleton.mp new]
    exact other above

theorem Following.takeDown (following : Following hierarchy writer name past net held)
    (node : Node) (index : ℕ) :
    Following hierarchy writer name past (net.takeDown node index) held :=
  following.changeDown fun above each inside =>
    following.silent node above each (List.mem_of_mem_eraseIdx inside)

theorem Following.report {node : Node} {asked : Name}
    {interfaces : CybertwinInterfaceList} {rest : List (Name × CybertwinInterfaceList)}
    (following : Following hierarchy writer name past net held)
    (pending : net.reports node = (asked, interfaces) :: rest) :
    Following hierarchy writer name past
      ((net.setReports node rest).sendUp node (insertHeader asked interfaces)) held := by
  have moved : (net.up node ++ [insertHeader asked interfaces]).filterMap (insertOf name) ++
      rest.filterMap (reportOf name) =
        (net.up node).filterMap (insertOf name) ++
          (net.reports node).filterMap (reportOf name) := by
    rw [pending, List.filterMap_append]
    by_cases same : asked = name
    · simp [insertOf, reportOf, insertHeader, CNRSHeader.setInterfaceList, same]
    · simp [insertOf, reportOf, insertHeader, CNRSHeader.setInterfaceList, same]
  have harmless : ¬ Asks name (insertHeader asked interfaces) := by
    simp [Asks, insertHeader, CNRSHeader.setInterfaceList]
  refine ⟨following.own, following.cache, ?_, following.distinct, ?_, ?_, following.silent, ?_⟩
  · intro other above onChain stepped
    have chain := following.chain other above onChain stepped
    by_cases same : other = node
    · subst same
      simp only [Network.setReports, Network.sendUp, Function.update_self]
      rw [moved]
      exact chain
    · simpa [Network.setReports, Network.sendUp, same] using chain
  · intro other above
    by_cases same : other = node
    · subst same
      simp only [Network.setReports, Network.sendUp, Function.update_self, List.pairwise_append]
      refine ⟨following.queue other above, List.pairwise_singleton _ _, ?_⟩
      intro earlier _ later last _
      rw [List.mem_singleton.mp last]
      exact harmless
    · simpa [Network.setReports, Network.sendUp, same] using following.queue other above
  · intro other above onChain stepped header inside asks
    refine following.early other above onChain stepped header ?_ asks
    by_cases same : other = node
    · subst same
      simp only [Network.setReports, Network.sendUp, Function.update_self, List.mem_append,
        List.mem_singleton] at inside
      rcases inside with old | rfl
      · exact old
      · exact absurd asks harmless
    · simpa [Network.setReports, Network.sendUp, same] using inside
  · intro other outside
    have clear := following.elsewhere other outside
    by_cases same : other = node
    · subst same
      rw [← List.append_eq_nil_iff] at clear ⊢
      simp only [Network.setReports, Network.sendUp, Function.update_self]
      rw [moved]
      exact clear
    · simpa [Network.setReports, Network.sendUp, same] using clear

theorem Following.unreport {node : Node} {report : Name × CybertwinInterfaceList}
    {rest : List (Name × CybertwinInterfaceList)}
    (following : Following hierarchy writer name past net held)
    (pending : net.reports node = report :: rest) (top : hierarchy.superior node = none) :
    Following hierarchy writer name past (net.setReports node rest) held := by
  refine { following with chain := fun other above onChain stepped => ?_,
                          elsewhere := fun other outside => ?_ }
  · have distinct : other ≠ node := by
      rintro rfl
      rw [top] at stepped
      cases stepped
    simpa [Network.setReports, distinct] using following.chain other above onChain stepped
  · have clear := following.elsewhere other outside
    by_cases same : other = node
    · subst same
      rw [pending] at clear
      refine ⟨clear.1, ?_⟩
      simp only [Network.setReports, Function.update_self]
      rw [List.filterMap_eq_nil_iff]
      exact fun each inside =>
        List.filterMap_eq_nil_iff.mp clear.2 each (List.mem_cons_of_mem report inside)
    · simpa [Network.setReports, same] using clear

theorem reportOf_other {asked : Name} (distinct : asked ≠ name)
    (interfaces : CybertwinInterfaceList) : reportOf name (asked, interfaces) = none :=
  if_neg distinct

theorem Following.storeOther {later : List (Action Node)} {asked : Name}
    (following : Following hierarchy writer name past net held)
    (sameVersions : versions name later = versions name past) (distinct : asked ≠ name)
    (node : Node) (interfaces : CybertwinInterfaceList) :
    Following hierarchy writer name later (net.stored hierarchy node asked interfaces) held := by
  have unreported : ∀ other, ((net.stored hierarchy node asked interfaces).reports other).filterMap
      (reportOf name) = (net.reports other).filterMap (reportOf name) := by
    intro other
    rw [Network.stored_reports, List.filterMap_append]
    split
    · rw [List.filterMap_cons_none (reportOf_other distinct interfaces), List.filterMap_nil,
        List.append_nil]
    · rw [List.filterMap_nil, List.append_nil]
  refine ⟨following.own.trans sameVersions.symm, fun other above => ?_, ?_, following.distinct,
    ?_, ?_, ?_, ?_⟩
  · rw [Network.stored_itemCache, if_neg fun both => distinct both.2.symm]
    exact following.cache other above
  · intro other above onChain stepped
    rw [unreported, Network.stored_up]
    exact following.chain other above onChain stepped
  · rw [Network.stored_up]
    exact following.queue
  · rw [Network.stored_up]
    exact following.early
  · rw [Network.stored_down]
    exact following.silent
  · intro other outside
    rw [unreported, Network.stored_up]
    exact following.elsewhere other outside

theorem isChain_snoc {versions : List CybertwinInterfaceList}
    {interfaces : CybertwinInterfaceList} (chain : versions.IsChain (· ≠ ·))
    (fresh : versions.getLast? ≠ some interfaces) : (versions ++ [interfaces]).IsChain (· ≠ ·) := by
  rw [List.isChain_append]
  refine ⟨chain, List.isChain_singleton _, ?_⟩
  rintro last found first head rfl
  simp only [List.head?_cons, Option.mem_def, Option.some.injEq] at head
  rw [head] at fresh
  exact fresh found

-- What is reported of a list that a node stores anew.
theorem reports_fresh {node superior : Node} {interfaces : CybertwinInterfaceList}
    (tree : hierarchy.Tree) (fresh : (net.service node).itemCache name ≠ some interfaces)
    (stepped : hierarchy.superior node = some superior) :
    ((net.stored hierarchy node name interfaces).reports node).filterMap (reportOf name) =
      (net.reports node).filterMap (reportOf name) ++ [interfaces] := by
  have notRoot : hierarchy.isCNRSRoot node = false := by
    cases root : hierarchy.isCNRSRoot node with
    | false => rfl
    | true =>
        rw [(tree.root node).mp root] at stepped
        cases stepped
  rw [Network.stored_reports, if_pos ⟨rfl, fresh, notRoot⟩]
  simp [reportOf]

theorem reports_elsewhere {node other : Node} (distinct : other ≠ node)
    (interfaces : CybertwinInterfaceList) :
    (net.stored hierarchy node name interfaces).reports other = net.reports other := by
  rw [Network.stored_reports, if_neg fun both => distinct both.1, List.append_nil]

def grown (held : Node → List CybertwinInterfaceList) (node : Node)
    (interfaces : CybertwinInterfaceList) : Node → List CybertwinInterfaceList :=
  Function.update held node (held node ++ [interfaces])

theorem grown_length (held : Node → List CybertwinInterfaceList) (node : Node)
    (interfaces : CybertwinInterfaceList) (other : Node) :
    (held other).length ≤ (grown held node interfaces other).length := by
  by_cases same : other = node
  · subst same
    simp [grown]
  · simp [grown, same]

theorem Following.grown_cache {node other : Node}
    (following : Following hierarchy writer name past net held)
    (interfaces : CybertwinInterfaceList) (above : Above hierarchy.superior writer other) :
    (if other = node ∧ name = name then some interfaces
      else (net.service other).itemCache name) = (grown held node interfaces other).getLast? := by
  by_cases same : other = node
  · subst same
    simp [grown]
  · simp only [same, false_and, if_false, grown, ne_eq, not_false_eq_true,
      Function.update_of_ne]
    exact following.cache other above

theorem Following.write (tree : hierarchy.Tree)
    (following : Following hierarchy writer name past net held)
    (interfaces : CybertwinInterfaceList) :
    ∃ after, Following hierarchy writer name (past ++ [.insert writer name interfaces])
      (net.stored hierarchy writer name interfaces) after ∧
        ∀ node, (held node).length ≤ (after node).length := by
  have here : Above hierarchy.superior writer writer := Relation.ReflTransGen.refl
  have current := following.cache writer here
  by_cases known : (net.service writer).itemCache name = some interfaces
  · refine ⟨held, ?_, fun _ => le_rfl⟩
    rw [Network.stored, if_pos known]
    refine following.frame ?_ rfl rfl rfl fun _ _ => rfl
    rw [versions_snoc_insert, push, ← following.own, ← current, if_pos known]
  · have fresh : (held writer).getLast? ≠ some interfaces := current ▸ known
    have notBelow : ∀ node superior, Above hierarchy.superior writer node →
        hierarchy.superior node = some superior →
          grown held writer interfaces superior = held superior := by
      intro node superior above stepped
      refine Function.update_of_ne ?_ _ _
      rintro rfl
      exact above.not_below tree.ends stepped
    refine ⟨grown held writer interfaces, ⟨?_, fun node above => ?_, ?_, ?_, ?_, ?_, ?_, ?_⟩,
      grown_length held writer _⟩
    · rw [grown, Function.update_self, versions_snoc_insert, push, ← following.own, if_neg fresh]
    · rw [Network.stored_itemCache]
      exact following.grown_cache interfaces above
    · intro node superior above stepped
      have chain := following.chain node superior above stepped
      rw [notBelow node superior above stepped, Network.stored_up]
      by_cases own : node = writer
      · subst own
        rw [reports_fresh tree known stepped, grown, Function.update_self, chain]
        simp
      · rw [reports_elsewhere own, grown, Function.update_of_ne own]
        exact chain
    · rw [grown, Function.update_self]
      exact isChain_snoc following.distinct fresh
    · rw [Network.stored_up]
      exact following.queue
    · intro node superior above stepped
      rw [notBelow node superior above stepped, Network.stored_up]
      exact following.early node superior above stepped
    · rw [Network.stored_down]
      exact following.silent
    · intro node outside
      have apart : node ≠ writer := by
        rintro rfl
        exact outside here
      rw [reports_elsewhere apart, Network.stored_up]
      exact following.elsewhere node outside

omit [DecidableEq Node] in
theorem Following.held_prefix (following : Following hierarchy writer name past net held)
    {node : Node} (above : Above hierarchy.superior writer node) : held node <+: held writer := by
  induction above with
  | refl => exact List.prefix_rfl
  | tail reached stepped ih =>
      have chain := following.chain _ _ reached stepped
      exact (chain ▸ List.prefix_append _ _ : _ <+: _).trans ih

theorem Following.arrive (tree : hierarchy.Tree)
    (following : Following hierarchy writer name past net held) {node superior : Node}
    {header : CNRSHeader} (above : Above hierarchy.superior writer node)
    (stepped : hierarchy.superior node = some superior)
    (found : (net.up node)[0]? = some header) (insert : header.method = .insert)
    (named : header.cuid = name) :
    Following hierarchy writer name past
      ((net.takeUp node 0).stored hierarchy superior name header.interfaceList)
      (grown held superior header.interfaceList) := by
  have queue := eq_cons_of_head found
  have delivers : insertOf name header = some header.interfaceList := if_pos ⟨insert, named⟩
  have higher : Above hierarchy.superior writer superior := above.tail stepped
  have chainHere := following.chain node superior above stepped
  rw [queue, List.filterMap_cons_some delivers] at chainHere
  have fresh : (net.service superior).itemCache name ≠ some header.interfaceList := by
    rw [following.cache superior higher]
    intro last
    obtain ⟨more, all⟩ := following.held_prefix above
    have chain := following.distinct
    rw [← all, chainHere, List.append_assoc] at chain
    exact (List.isChain_append.mp chain).2.2 _ last header.interfaceList rfl rfl
  have below : ∀ other, Above hierarchy.superior writer other →
      hierarchy.superior other = some superior → other = node := fun other reached otherStep =>
    reached.below_unique tree.ends above otherStep stepped
  have missing : ((net.takeUp node 0).service superior).itemCache name ≠
      some header.interfaceList := fresh
  refine ⟨?_, fun other reached => ?_, ?_, ?_, ?_, ?_, ?_, ?_⟩
  · rw [grown, Function.update_of_ne]
    · exact following.own
    · rintro rfl
      exact above.not_below tree.ends stepped
  · rw [Network.stored_itemCache]
    exact following.grown_cache header.interfaceList reached
  · intro other next reached otherStep
    have chain := following.chain other next reached otherStep
    rw [Network.stored_up]
    by_cases here : other = node
    · subst here
      rw [stepped, Option.some.injEq] at otherStep
      subst otherStep
      have apart : other ≠ superior := by
        rintro rfl
        exact tree.notSelf other stepped
      rw [reports_elsewhere apart, grown, Function.update_of_ne apart, Function.update_self,
        chainHere]
      simp [Network.takeUp]
    · have untaken : (net.takeUp node 0).up other = net.up other := Function.update_of_ne here _ _
      have nextElse : next ≠ superior := by
        rintro rfl
        exact here (below other reached otherStep)
      rw [untaken, grown, Function.update_of_ne nextElse]
      by_cases receiver : other = superior
      · subst receiver
        rw [reports_fresh tree missing otherStep, Function.update_self, chain]
        simp [Network.takeUp]
      · rw [reports_elsewhere receiver, Function.update_of_ne receiver]
        exact chain
  · rw [grown, Function.update_of_ne]
    · exact following.distinct
    · rintro rfl
      exact above.not_below tree.ends stepped
  · intro other reached
    rw [Network.stored_up]
    by_cases here : other = node
    · subst here
      have ordered := following.queue other reached
      rw [queue] at ordered
      simpa [Network.takeUp] using ordered.of_cons
    · simpa [Network.takeUp, here] using following.queue other reached
  · intro other next reached otherStep later inside asks
    rw [Network.stored_up] at inside
    by_cases here : other = node
    · subst here
      have ordered := following.queue other reached
      rw [queue] at ordered
      refine absurd asks (List.rel_of_pairwise_cons ordered ?_ (by rw [delivers]; rfl))
      simpa [Network.takeUp] using inside
    · have nextElse : next ≠ superior := by
        rintro rfl
        exact here (below other reached otherStep)
      rw [grown, Function.update_of_ne nextElse]
      refine following.early other next reached otherStep later ?_ asks
      simpa [Network.takeUp, here] using inside
  · rw [Network.stored_down]
    exact following.silent
  · intro other outside
    have notReceiver : other ≠ superior := by
      rintro rfl
      exact outside higher
    have notSender : other ≠ node := by
      rintro rfl
      exact outside above
    rw [reports_elsewhere notReceiver, Network.stored_up]
    simpa [Network.takeUp, notSender, Network.setReports] using following.elsewhere other outside

theorem Following.learn {node : Node} {header : CNRSHeader}
    (following : Following hierarchy writer name past net held)
    (other : Above hierarchy.superior writer node → header.cuid ≠ name) :
    Following hierarchy writer name past (net.learned node header) held := by
  refine following.frame rfl (net.learned_reports node header) (net.learned_up node header)
    (net.learned_down node header) fun each above => ?_
  rw [Network.learned_itemCache, if_neg]
  rintro ⟨_, rfl, same⟩
  exact other above same.symm

omit [DecidableEq Node] in
theorem Following.unheld {node : Node} (following : Following hierarchy writer name past net held)
    (above : Above hierarchy.superior writer node)
    (miss : (net.service node).itemCache name = none) : held node = [] := by
  rw [following.cache node above] at miss
  exact List.getLast?_eq_none_iff.mp miss

/-- A step in order keeps the ancestors behind the writer, and takes none of them back. -/
theorem Following.step {action : Action Node} {next : Network Node} (tree : hierarchy.Tree)
    (following : Following hierarchy writer name past net held) (clients : Clients hierarchy net)
    (single : SingleWriter writer name net action)
    (happened : step hierarchy net action = some next) :
    ∃ after, Following hierarchy writer name (past ++ [action]) next after ∧
      ∀ node, (held node).length ≤ (after node).length := by
  obtain ⟨fifo, written⟩ := single
  have moved : (∀ node interfaces, action ≠ .insert node name interfaces) →
      Following hierarchy writer name past next held →
      ∃ after, Following hierarchy writer name (past ++ [action]) next after ∧
        ∀ node, (held node).length ≤ (after node).length := fun other kept =>
    ⟨held, kept.frame (versions_snoc_other other) rfl rfl rfl fun _ _ => rfl, fun _ => le_rfl⟩
  cases step_move happened with
  | insert node asked interfaces =>
      by_cases same : asked = name
      · subst same
        obtain rfl := written node interfaces rfl
        exact following.write tree interfaces
      · refine moved ?_ (following.storeOther rfl same node interfaces)
        rintro other list same_
        cases same_
        exact same rfl
  | lookupHit node asked qId interfaces hit =>
      exact moved (by simp) (following.frame rfl rfl rfl rfl fun _ _ => rfl)
  | lookupSent node asked qId superior miss fresh above =>
      refine moved (by simp) (Following.sendPlain ?_ above rfl fun onChain asks => ?_)
      · exact following.frame rfl rfl rfl rfl fun _ _ => by simp
      · exact following.unheld onChain (asks.2 ▸ miss)
  | lookupFailed node asked qId miss fresh top =>
      exact moved (by simp) (following.frame rfl rfl rfl rfl fun _ _ => by simp)
  | reported node superior asked interfaces rest pending above fits =>
      exact moved (by simp) (following.report pending)
  | unreported node asked interfaces rest pending top =>
      exact moved (by simp) (following.unreport pending top)
  | queryHit node superior index header interfaces above found query hit fits =>
      obtain rfl : index = 0 := fifo
      refine moved (by simp) ((following.takeUp found (by simp [insertOf, query])).sendDown ?_)
      rintro onChain rfl
      have unheld := following.early node superior onChain above header
        (List.mem_of_getElem? found) ⟨query, rfl⟩
      have current := following.cache superior (onChain.tail above)
      rw [unheld] at current
      exact absurd (hit.symm.trans current) (by simp)
  | queryForwarded node superior further index header above found query miss beyond =>
      obtain rfl : index = 0 := fifo
      refine moved (by simp) (Following.sendPlain ?_ beyond rfl fun onChain asks => ?_)
      · exact (following.takeUp found (by simp [insertOf, query])).frame rfl rfl rfl rfl
          fun _ _ => by simp
      · exact following.unheld onChain (asks.2 ▸ miss)
  | insertArrived node superior index header above found insert =>
      obtain rfl : index = 0 := fifo
      by_cases same : header.cuid = name
      · have onChain : Above hierarchy.superior writer node := by
          by_contra outside
          have unsent := List.filterMap_eq_nil_iff.mp (following.elsewhere node outside).1 header
            (List.mem_of_getElem? found)
          rw [insertOf, if_pos ⟨insert, same⟩] at unsent
          cases unsent
        have arrived := following.arrive tree onChain above found insert same
        rw [← same] at arrived ⊢
        exact ⟨_, arrived.frame (versions_snoc_other (by simp)) rfl rfl rfl fun _ _ => rfl,
          grown_length held superior _⟩
      · exact moved (by simp) ((following.takeUp found (by simp [insertOf, same])).storeOther rfl
          same superior _)
  | otherUp node superior index header above found other =>
      obtain rfl : index = 0 := fifo
      exact moved (by simp) (following.takeUp found (by simp [insertOf, other.2]))
  | relayed node peer index header found response client fits =>
      have foreign : Above hierarchy.superior writer node → header.cuid ≠ name := fun above =>
        following.silent node above header (List.mem_of_getElem? found)
      refine moved (by simp) (Following.sendDown ?_ fun above => ?_)
      · exact ((following.takeDown node index).learn foreign).frame rfl rfl rfl rfl
          fun _ _ => by simp
      · have named : (responseHeader header.cuid header.queryId (answer header)).cuid =
            header.cuid := by
          unfold responseHeader
          split <;> rfl
        rw [named]
        exact foreign (above.tail (clients node header.queryId peer client))
  | called node index header lookup found response noClient entry =>
      have foreign : Above hierarchy.superior writer node → header.cuid ≠ name := fun above =>
        following.silent node above header (List.mem_of_getElem? found)
      exact moved (by simp) (((following.takeDown node index).learn foreign).frame rfl rfl rfl rfl
        fun _ _ => by simp)
  | unknown node index header found response noClient entry =>
      have foreign : Above hierarchy.superior writer node → header.cuid ≠ name := fun above =>
        following.silent node above header (List.mem_of_getElem? found)
      exact moved (by simp) ((following.takeDown node index).learn foreign)
  | otherDown node index header found other =>
      exact moved (by simp) (following.takeDown node index)
  | lostUp => exact absurd fifo id
  | lostDown => exact absurd fifo id

omit [DecidableEq Node] in
theorem following_initial : Following hierarchy writer name [] {} fun _ => [] := by
  constructor
  · rfl
  · exact fun _ _ => rfl
  · exact fun _ _ _ _ => rfl
  · exact List.IsChain.nil
  · exact fun _ _ => List.Pairwise.nil
  · exact fun _ _ _ _ _ _ _ => rfl
  · exact fun _ _ _ inside => by cases inside
  · exact fun _ _ => ⟨rfl, rfl⟩

omit [DecidableEq Node] in
theorem Following.held_quiet (following : Following hierarchy writer name past net held)
    (quiet : Quiet net) {node : Node} (above : Above hierarchy.superior writer node) :
    held node = held writer := by
  induction above with
  | refl => rfl
  | tail reached stepped ih =>
      have chain := following.chain _ _ reached stepped
      rw [quiet.up, quiet.reports, List.filterMap_nil, List.filterMap_nil, List.append_nil,
        List.append_nil] at chain
      exact chain.symm.trans ih

theorem entries_follow (tree : hierarchy.Tree) {actions : List (Action Node)}
    (single : Guarded (NameResolution.step hierarchy) (SingleWriter writer name) {} actions) :
    ∃ reached : Node → ℕ → ℕ, (∀ node, Monotone (reached node)) ∧
      ∀ time net, run (NameResolution.step hierarchy) {} (actions.take time) = some net →
        ∀ node, Above hierarchy.superior writer node →
          (net.service node).itemCache name =
            ((versions name (actions.take time)).take (reached node time)).getLast? ∧
          (Quiet net → (net.service node).itemCache name =
            (inserted name (actions.take time)).getLast?) := by
  obtain ⟨held, _, growing, holds⟩ := exists_ghosts
    (fun past net held => Following hierarchy writer name past net held ∧ Clients hierarchy net)
    (fun held after => ∀ node, (held node).length ≤ (after node).length)
    (fun _ _ => le_rfl)
    (fun past net action next held inv single happened => by
      obtain ⟨after, following, grown⟩ := inv.1.step tree inv.2 single happened
      exact ⟨after, ⟨following, inv.2.step happened⟩, grown⟩)
    ⟨following_initial, fun _ _ _ client => by cases client⟩ single
  refine ⟨fun node time => (held time node).length,
    fun node => monotone_nat_of_le_succ fun time => growing time node, ?_⟩
  intro time net ran node above
  obtain ⟨following, _⟩ := holds time net ran
  have current := following.cache node above
  refine ⟨?_, fun quiet => ?_⟩
  · have start := List.prefix_iff_eq_take.mp (following.held_prefix above)
    rw [following.own] at start
    rw [current, start]
    simp
  · rw [current, following.held_quiet quiet above, following.own, versions_getLast?]
    rfl

/-- The entries of the writer's ancestors only move on along the writer's versions, in a quiet
network they all are the last list that was inserted, and no step aborts the program. -/
structure Converging (hierarchy : Hierarchy Node) (writer : Node) (name : Name)
    (actions : List (Action Node)) : Prop where
  follow : ∃ reached : Node → ℕ → ℕ, (∀ node, Monotone (reached node)) ∧
    ∀ time net, run (step hierarchy) {} (actions.take time) = some net →
      ∀ node, Above hierarchy.superior writer node →
        (net.service node).itemCache name =
          ((versions name (actions.take time)).take (reached node time)).getLast? ∧
        (Quiet net → (net.service node).itemCache name =
          (inserted name (actions.take time)).getLast?)
  survived : Survived hierarchy actions

theorem converging_iff_survives (tree : hierarchy.Tree) {actions : List (Action Node)}
    (single : Guarded (step hierarchy) (SingleWriter writer name) {} actions) :
    Converging hierarchy writer name actions ↔
      Guarded (step hierarchy) (Survives hierarchy) {} actions := by
  constructor
  · exact fun converging => survived_iff.mp converging.survived
  · exact fun survives => ⟨entries_follow tree single, survived_iff.mpr survives⟩

-- The root looks the name up before the first insert arrives.
def pairRun : List (Action Bool) :=
  [.lookup false 7 1, .insert true 7 [(1, 80)], .report true, .insert true 7 [(2, 80)],
    .deliverUp true 0, .report true, .deliverUp true 0]

theorem converging_pair : Converging pair true 7 pairRun := by
  refine (converging_iff_survives pair_tree (guarded_of_forall fun net action inside =>
    ⟨?_, ?_⟩)).mpr ⟨trivial, fun asked happened => ?_⟩
  · simp only [pairRun, List.mem_cons, List.not_mem_nil, or_false] at inside
    rcases inside with rfl | rfl | rfl | rfl | rfl | rfl | rfl <;> trivial
  · rintro node interfaces rfl
    simp only [pairRun, List.mem_cons, List.not_mem_nil, Action.insert.injEq, reduceCtorEq,
      or_false, false_or] at inside
    rcases inside with inserted | inserted <;> exact inserted.1
  obtain rfl := Option.some.inj happened
  refine ⟨trivial, fun inserted happened => ?_⟩
  obtain rfl := Option.some.inj happened
  have short : ∀ interface : CybertwinInterface, [interface].length ≤ 255 :=
    fun _ => Nat.le_of_ble_eq_true rfl
  refine ⟨fun _ report first => ?_, fun reported happened => ?_⟩
  · obtain rfl := Option.some.inj first
    exact short _
  obtain rfl := Option.some.inj happened
  refine ⟨trivial, fun renewed happened => ?_⟩
  obtain rfl := Option.some.inj happened
  refine ⟨fun superior header above found query => ?_, fun arrived happened => ?_⟩
  · obtain rfl := Option.some.inj found
    cases query
  obtain rfl := Option.some.inj happened
  refine ⟨fun _ report first => ?_, fun again happened => ?_⟩
  · obtain rfl := Option.some.inj first
    exact short _
  obtain rfl := Option.some.inj happened
  refine ⟨fun superior header above found query => ?_, fun _ _ => trivial⟩
  obtain rfl := Option.some.inj found
  cases query

-- The sub-node looks its name up before it inserts it.
def abortedRun : List (Action Bool) :=
  [.lookup true 7 1, .insert true 7 [(1, 80)], .report true, .deliverUp true 0]

theorem not_converging_pair : Guarded (step pair) (SingleWriter true 7) {} abortedRun ∧
    ¬ Converging pair true 7 abortedRun := by
  constructor
  · refine guarded_of_forall fun net action inside => ⟨?_, ?_⟩
    · simp only [abortedRun, List.mem_cons, List.not_mem_nil, or_false] at inside
      rcases inside with rfl | rfl | rfl | rfl <;> trivial
    · rintro node interfaces rfl
      simp only [abortedRun, List.mem_cons, List.not_mem_nil, Action.insert.injEq, reduceCtorEq,
        or_false, false_or] at inside
      exact inside.1
  · intro converging
    have aborts := (((converging.survived.2 _ rfl).2 _ rfl).2 _ rfl).1 ⟨by decide, by decide⟩
    revert aborts
    decide

end FISim.NameResolution
