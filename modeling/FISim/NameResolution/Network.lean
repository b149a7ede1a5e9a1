import FISim.Lib.Chain
import FISim.Lib.Transition
import FISim.NameResolution.Service
import Mathlib.Data.List.Perm.Basic

/-!
Name resolution services that send to their superiors and answer their
sub-nodes.  `up node` holds the packets from a node to its superior and
`down node` those that come back; `reports node` holds the node's scheduled
`ReportName2Superior` events.  The last three fields record the history.
-/

namespace FISim.NameResolution

structure Hierarchy (Node : Type) where
  superior : Node → Option Node
  isCNRSRoot : Node → Bool

/-- A hierarchy without a circle, whose roots are the nodes without a superior. -/
structure Hierarchy.Tree {Node : Type} (hierarchy : Hierarchy Node) : Prop where
  ends : ∀ node, Chain.Ends hierarchy.superior node
  root : ∀ node, hierarchy.isCNRSRoot node = true ↔ hierarchy.superior node = none

theorem Hierarchy.Tree.notSelf {Node : Type} {hierarchy : Hierarchy Node}
    (tree : hierarchy.Tree) (node : Node) : hierarchy.superior node ≠ some node := by
  have reached : Chain.Above hierarchy.superior node node := Relation.ReflTransGen.refl
  exact reached.not_below tree.ends

-- A root (`false`) with one sub-node (`true`).
def pair : Hierarchy Bool where
  superior := fun node => if node then some false else none
  isCNRSRoot := fun node => !node

theorem pair_tree : pair.Tree where
  ends := fun node => ⟨2, by cases node <;> rfl⟩
  root := fun node => by cases node <;> decide

inductive Tier
  | root
  | middle
  | leaf
  deriving DecidableEq

def tiers : Hierarchy Tier where
  superior
    | .root => none
    | .middle => some .root
    | .leaf => some .middle
  isCNRSRoot := fun node => node = .root

theorem tiers_tree : tiers.Tree where
  ends := fun node => ⟨3, by cases node <;> rfl⟩
  root := fun node => by cases node <;> decide

inductive Envelope (Node : Type)
  | up (node : Node) (header : CNRSHeader)
  | down (node : Node) (header : CNRSHeader)
  deriving DecidableEq

structure Call where
  lookup : ℕ
  name : Name
  interfaces : CybertwinInterfaceList
  deriving DecidableEq

structure Network (Node : Type) where
  service : Node → Service Node := fun _ => {}
  reports : Node → List (Name × CybertwinInterfaceList) := fun _ => []
  up : Node → List CNRSHeader := fun _ => []
  down : Node → List CNRSHeader := fun _ => []
  sent : List (Envelope Node) := []
  lookups : List (Node × Name) := []
  called : List Call := []

inductive Action (Node : Type)
  | insert (node : Node) (name : Name) (interfaces : CybertwinInterfaceList)
  | lookup (node : Node) (name : Name) (qId : QueryId)
  | report (node : Node)
  | deliverUp (node : Node) (index : ℕ)
  | deliverDown (node : Node) (index : ℕ)
  | loseUp (node : Node) (index : ℕ)
  | loseDown (node : Node) (index : ℕ)
  deriving DecidableEq

variable {Node : Type} [DecidableEq Node]

namespace Network

def setService (net : Network Node) (node : Node) (service : Service Node) : Network Node :=
  { net with service := Function.update net.service node service }

def setItem (net : Network Node) (node : Node) (name : Name)
    (interfaces : CybertwinInterfaceList) : Network Node :=
  net.setService node { net.service node with
    itemCache := Function.update (net.service node).itemCache name (some interfaces) }

def setQuery (net : Network Node) (node : Node) (qId : QueryId) (entry : Option Callback) :
    Network Node :=
  net.setService node { net.service node with
    queryCache := Function.update (net.service node).queryCache qId entry }

def setClient (net : Network Node) (node : Node) (qId : QueryId) (entry : Option Node) :
    Network Node :=
  net.setService node { net.service node with
    queryClientCache := Function.update (net.service node).queryClientCache qId entry }

def sendUp (net : Network Node) (node : Node) (header : CNRSHeader) : Network Node :=
  { net with
    up := Function.update net.up node (net.up node ++ [header])
    sent := net.sent ++ [.up node header] }

def sendDown (net : Network Node) (node : Node) (header : CNRSHeader) : Network Node :=
  { net with
    down := Function.update net.down node (net.down node ++ [header])
    sent := net.sent ++ [.down node header] }

def takeUp (net : Network Node) (node : Node) (index : ℕ) : Network Node :=
  { net with up := Function.update net.up node ((net.up node).eraseIdx index) }

def takeDown (net : Network Node) (node : Node) (index : ℕ) : Network Node :=
  { net with down := Function.update net.down node ((net.down node).eraseIdx index) }

def setReports (net : Network Node) (node : Node)
    (reports : List (Name × CybertwinInterfaceList)) : Network Node :=
  { net with reports := Function.update net.reports node reports }

def ask (net : Network Node) (node : Node) (name : Name) : Network Node :=
  { net with lookups := net.lookups ++ [(node, name)] }

def call (net : Network Node) (lookup : ℕ) (name : Name) (interfaces : CybertwinInterfaceList) :
    Network Node :=
  { net with called := net.called ++ [{ lookup, name, interfaces }] }

def emit (node : Node) (net : Network Node) : Output Node → Option (Network Node)
  | .send header => do
      let received ← header.transmit
      return net.sendUp node received
  | .sendTo peer header => do
      let received ← header.transmit
      return net.sendDown peer received
  | .call lookup name interfaces => some (net.call lookup name interfaces)
  | .scheduleReport name interfaces =>
      some (net.setReports node (net.reports node ++ [(name, interfaces)]))

def perform (net : Network Node) (node : Node) (effect : Service Node × List (Output Node)) :
    Option (Network Node) :=
  effect.2.foldlM (emit node) (net.setService node effect.1)

end Network

def step (hierarchy : Hierarchy Node) (before : Network Node) :
    Action Node → Option (Network Node)
  | .insert node name interfaces =>
      before.perform node ((before.service node).insertCybertwinInterfaceName
        (hierarchy.isCNRSRoot node) name interfaces)
  | .lookup node name qId => do
      let effect ← (before.service node).getCybertwinInterfaceByName
        (hierarchy.superior node).isSome name (.application before.lookups.length) qId
      (before.ask node name).perform node effect
  | .report node =>
      match before.reports node with
      | [] => none
      | (name, interfaces) :: rest =>
          (before.setReports node rest).perform node (before.service node,
            Service.reportName2Superior (hierarchy.superior node).isSome name interfaces)
  | .deliverUp node index => do
      let superior ← hierarchy.superior node
      let header ← (before.up node)[index]?
      let effect ← (before.service superior).serviceRecvHandler
        (hierarchy.superior superior).isSome (hierarchy.isCNRSRoot superior) header node
      (before.takeUp node index).perform superior effect
  | .deliverDown node index => do
      let header ← (before.down node)[index]?
      let effect ← (before.service node).clientRecvHandler header
      (before.takeDown node index).perform node effect
  | .loseUp node index =>
      if index < (before.up node).length then some (before.takeUp node index) else none
  | .loseDown node index =>
      if index < (before.down node).length then some (before.takeDown node index) else none

/-- Links deliver in the order of sending. -/
def Fifo : Action Node → Prop
  | .deliverUp _ index | .deliverDown _ index => index = 0
  | .loseUp _ _ | .loseDown _ _ => False
  | _ => True

structure Quiet (net : Network Node) : Prop where
  reports : ∀ node, net.reports node = []
  up : ∀ node, net.up node = []
  down : ∀ node, net.down node = []

theorem Quiet.of_pair {net : Network Bool}
    (root : net.reports false = [] ∧ net.up false = [] ∧ net.down false = [])
    (leaf : net.reports true = [] ∧ net.up true = [] ∧ net.down true = []) : Quiet net where
  reports node := by cases node <;> simp [root, leaf]
  up node := by cases node <;> simp [root, leaf]
  down node := by cases node <;> simp [root, leaf]

namespace Network

-- `InsertCybertwinInterfaceName` on the whole network.
def stored (hierarchy : Hierarchy Node) (net : Network Node) (node : Node) (name : Name)
    (interfaces : CybertwinInterfaceList) : Network Node :=
  if (net.service node).itemCache name = some interfaces then net
  else if hierarchy.isCNRSRoot node then net.setItem node name interfaces
  else (net.setItem node name interfaces).setReports node
    (net.reports node ++ [(name, interfaces)])

-- The entries that `ProcessQuery` makes for a query that it cannot answer.
def recorded (net : Network Node) (node : Node) (qId : QueryId) (peer : Node) : Network Node :=
  (net.setClient node qId (some peer)).setQuery node qId (some .queryResponse)

end Network

def answer (header : CNRSHeader) : CybertwinInterfaceList :=
  if header.method = .queryOk then header.interfaceList else []

def Network.learned (net : Network Node) (node : Node) (header : CNRSHeader) : Network Node :=
  if header.method = .queryOk then net.setItem node header.cuid header.interfaceList else net

def IsResponse (header : CNRSHeader) : Prop :=
  header.method = .queryOk ∨ header.method = .queryFail

theorem responseHeader_spec (name : Name) (qId : QueryId) (interfaces : CybertwinInterfaceList) :
    IsResponse (responseHeader name qId interfaces) ∧
      (responseHeader name qId interfaces).cuid = name ∧
      (responseHeader name qId interfaces).queryId = qId ∧
      answer (responseHeader name qId interfaces) = interfaces := by
  unfold responseHeader
  split
  · rename_i empty
    exact ⟨Or.inr rfl, rfl, rfl, (List.length_eq_zero_iff.mp empty).symm⟩
  · exact ⟨Or.inl rfl, rfl, rfl, rfl⟩

theorem transmit_queryHeader (name : Name) (qId : QueryId) :
    (queryHeader name qId).transmit = some (queryHeader name qId) := by
  rw [CNRSHeader.transmit_eq ⟨rfl, rfl, fun _ => rfl⟩]
  rfl

theorem transmit_insertHeader (name : Name) (interfaces : CybertwinInterfaceList) :
    (insertHeader name interfaces).transmit =
      if interfaces.length ≤ 255 then some (insertHeader name interfaces) else none := by
  rw [CNRSHeader.transmit_eq ⟨rfl, rfl, fun plain => by cases plain⟩]
  rfl

theorem transmit_okHeader (name : Name) (qId : QueryId) (interfaces : CybertwinInterfaceList) :
    (okHeader name qId interfaces).transmit =
      if interfaces.length ≤ 255 then some (okHeader name qId interfaces) else none := by
  rw [CNRSHeader.transmit_eq ⟨rfl, rfl, fun plain => by cases plain⟩]
  rfl

theorem transmit_responseHeader (name : Name) (qId : QueryId)
    (interfaces : CybertwinInterfaceList) :
    (responseHeader name qId interfaces).transmit =
      if interfaces.length ≤ 255 then some (responseHeader name qId interfaces) else none := by
  by_cases empty : interfaces.length = 0
  · rw [responseHeader, if_pos empty, CNRSHeader.transmit_eq ⟨rfl, rfl, fun _ => rfl⟩]
    simp [empty, failHeader]
  · rw [responseHeader, if_neg empty, transmit_okHeader]

namespace Network

theorem setService_self (net : Network Node) (node : Node) :
    net.setService node (net.service node) = net := by
  simp [setService]

theorem perform_nothing (net : Network Node) (node : Node) (service : Service Node) :
    net.perform node (service, []) = some (net.setService node service) := rfl

theorem perform_one (net : Network Node) (node : Node) (service : Service Node)
    (output : Output Node) :
    net.perform node (service, [output]) = emit node (net.setService node service) output := by
  simp [perform]

theorem perform_insert (hierarchy : Hierarchy Node) (net : Network Node) (node : Node)
    (name : Name) (interfaces : CybertwinInterfaceList) :
    net.perform node ((net.service node).insertCybertwinInterfaceName (hierarchy.isCNRSRoot node)
      name interfaces) = some (net.stored hierarchy node name interfaces) := by
  unfold Service.insertCybertwinInterfaceName stored
  split
  · rw [perform_nothing, setService_self]
  · split
    · exact perform_nothing _ _ _
    · exact perform_one _ _ _ _

omit [DecidableEq Node] in
@[simp] theorem ask_service (net : Network Node) (node : Node) (name : Name) :
    (net.ask node name).service = net.service := rfl

omit [DecidableEq Node] in
@[simp] theorem call_service (net : Network Node) (lookup : ℕ) (name : Name)
    (interfaces : CybertwinInterfaceList) :
    (net.call lookup name interfaces).service = net.service := rfl

@[simp] theorem sendUp_service (net : Network Node) (node : Node) (header : CNRSHeader) :
    (net.sendUp node header).service = net.service := rfl

@[simp] theorem sendDown_service (net : Network Node) (node : Node) (header : CNRSHeader) :
    (net.sendDown node header).service = net.service := rfl

@[simp] theorem takeUp_service (net : Network Node) (node : Node) (index : ℕ) :
    (net.takeUp node index).service = net.service := rfl

@[simp] theorem takeDown_service (net : Network Node) (node : Node) (index : ℕ) :
    (net.takeDown node index).service = net.service := rfl

@[simp] theorem setReports_service (net : Network Node) (node : Node)
    (reports : List (Name × CybertwinInterfaceList)) :
    (net.setReports node reports).service = net.service := rfl

theorem setItem_itemCache (net : Network Node) (node other : Node) (name asked : Name)
    (interfaces : CybertwinInterfaceList) :
    ((net.setItem node name interfaces).service other).itemCache asked =
      if other = node ∧ asked = name then some interfaces
      else (net.service other).itemCache asked := by
  by_cases same : other = node
  · subst same
    simp [setItem, setService, Function.update_apply]
  · simp [setItem, setService, same]

@[simp] theorem setItem_queryCache (net : Network Node) (node other : Node) (name : Name)
    (interfaces : CybertwinInterfaceList) :
    ((net.setItem node name interfaces).service other).queryCache =
      (net.service other).queryCache := by
  by_cases same : other = node
  · subst same
    simp [setItem, setService]
  · simp [setItem, setService, same]

@[simp] theorem setItem_queryClientCache (net : Network Node) (node other : Node) (name : Name)
    (interfaces : CybertwinInterfaceList) :
    ((net.setItem node name interfaces).service other).queryClientCache =
      (net.service other).queryClientCache := by
  by_cases same : other = node
  · subst same
    simp [setItem, setService]
  · simp [setItem, setService, same]

@[simp] theorem setQuery_itemCache (net : Network Node) (node other : Node) (qId : QueryId)
    (entry : Option Callback) :
    ((net.setQuery node qId entry).service other).itemCache = (net.service other).itemCache := by
  by_cases same : other = node
  · subst same
    simp [setQuery, setService]
  · simp [setQuery, setService, same]

theorem setQuery_queryCache (net : Network Node) (node other : Node) (qId asked : QueryId)
    (entry : Option Callback) :
    ((net.setQuery node qId entry).service other).queryCache asked =
      if other = node ∧ asked = qId then entry else (net.service other).queryCache asked := by
  by_cases same : other = node
  · subst same
    simp [setQuery, setService, Function.update_apply]
  · simp [setQuery, setService, same]

@[simp] theorem setQuery_queryClientCache (net : Network Node) (node other : Node)
    (qId : QueryId) (entry : Option Callback) :
    ((net.setQuery node qId entry).service other).queryClientCache =
      (net.service other).queryClientCache := by
  by_cases same : other = node
  · subst same
    simp [setQuery, setService]
  · simp [setQuery, setService, same]

@[simp] theorem setClient_itemCache (net : Network Node) (node other : Node) (qId : QueryId)
    (entry : Option Node) :
    ((net.setClient node qId entry).service other).itemCache = (net.service other).itemCache := by
  by_cases same : other = node
  · subst same
    simp [setClient, setService]
  · simp [setClient, setService, same]

@[simp] theorem setClient_queryCache (net : Network Node) (node other : Node) (qId : QueryId)
    (entry : Option Node) :
    ((net.setClient node qId entry).service other).queryCache =
      (net.service other).queryCache := by
  by_cases same : other = node
  · subst same
    simp [setClient, setService]
  · simp [setClient, setService, same]

theorem setClient_queryClientCache (net : Network Node) (node other : Node)
    (qId asked : QueryId) (entry : Option Node) :
    ((net.setClient node qId entry).service other).queryClientCache asked =
      if other = node ∧ asked = qId then entry
      else (net.service other).queryClientCache asked := by
  by_cases same : other = node
  · subst same
    simp [setClient, setService, Function.update_apply]
  · simp [setClient, setService, same]

@[simp] theorem recorded_itemCache (net : Network Node) (node other peer : Node)
    (qId : QueryId) :
    ((net.recorded node qId peer).service other).itemCache = (net.service other).itemCache := by
  simp [recorded]

theorem recorded_queryCache (net : Network Node) (node other peer : Node)
    (qId asked : QueryId) :
    ((net.recorded node qId peer).service other).queryCache asked =
      if other = node ∧ asked = qId then some .queryResponse
      else (net.service other).queryCache asked := by
  rw [recorded, setQuery_queryCache, setClient_queryCache]

theorem recorded_queryClientCache (net : Network Node) (node other peer : Node)
    (qId asked : QueryId) :
    ((net.recorded node qId peer).service other).queryClientCache asked =
      if other = node ∧ asked = qId then some peer
      else (net.service other).queryClientCache asked := by
  rw [recorded, setQuery_queryClientCache, setClient_queryClientCache]

theorem learned_itemCache (net : Network Node) (node other : Node) (header : CNRSHeader)
    (asked : Name) :
    ((net.learned node header).service other).itemCache asked =
      if header.method = .queryOk ∧ other = node ∧ asked = header.cuid
      then some header.interfaceList else (net.service other).itemCache asked := by
  unfold learned
  by_cases ok : header.method = .queryOk
  · simp [ok, setItem_itemCache]
  · simp [ok]

@[simp] theorem learned_queryCache (net : Network Node) (node other : Node)
    (header : CNRSHeader) :
    ((net.learned node header).service other).queryCache = (net.service other).queryCache := by
  unfold learned
  split
  · exact net.setItem_queryCache _ _ _ _
  · rfl

@[simp] theorem learned_queryClientCache (net : Network Node) (node other : Node)
    (header : CNRSHeader) :
    ((net.learned node header).service other).queryClientCache =
      (net.service other).queryClientCache := by
  unfold learned
  split
  · exact net.setItem_queryClientCache _ _ _ _
  · rfl

@[simp] theorem learned_reports (net : Network Node) (node : Node) (header : CNRSHeader) :
    (net.learned node header).reports = net.reports := by
  unfold learned
  split <;> rfl

@[simp] theorem learned_up (net : Network Node) (node : Node) (header : CNRSHeader) :
    (net.learned node header).up = net.up := by
  unfold learned
  split <;> rfl

@[simp] theorem learned_down (net : Network Node) (node : Node) (header : CNRSHeader) :
    (net.learned node header).down = net.down := by
  unfold learned
  split <;> rfl

@[simp] theorem learned_sent (net : Network Node) (node : Node) (header : CNRSHeader) :
    (net.learned node header).sent = net.sent := by
  unfold learned
  split <;> rfl

@[simp] theorem learned_lookups (net : Network Node) (node : Node) (header : CNRSHeader) :
    (net.learned node header).lookups = net.lookups := by
  unfold learned
  split <;> rfl

@[simp] theorem learned_called (net : Network Node) (node : Node) (header : CNRSHeader) :
    (net.learned node header).called = net.called := by
  unfold learned
  split <;> rfl

theorem stored_eq (hierarchy : Hierarchy Node) (net : Network Node) (node : Node) (name : Name)
    (interfaces : CybertwinInterfaceList) :
    net.stored hierarchy node name interfaces =
      if (net.service node).itemCache name = some interfaces then net
      else (net.setItem node name interfaces).setReports node
        (net.reports node ++
          if hierarchy.isCNRSRoot node then [] else [(name, interfaces)]) := by
  unfold stored
  split
  · rfl
  · split
    · simp [setReports, setItem, setService]
    · rfl

theorem stored_itemCache (hierarchy : Hierarchy Node) (net : Network Node) (node other : Node)
    (name asked : Name) (interfaces : CybertwinInterfaceList) :
    ((net.stored hierarchy node name interfaces).service other).itemCache asked =
      if other = node ∧ asked = name then some interfaces
      else (net.service other).itemCache asked := by
  rw [stored_eq]
  split
  · rename_i held
    split
    · rename_i same
      rw [same.1, same.2, held]
    · rfl
  · exact net.setItem_itemCache node other name asked interfaces

theorem stored_reports (hierarchy : Hierarchy Node) (net : Network Node) (node other : Node)
    (name : Name) (interfaces : CybertwinInterfaceList) :
    (net.stored hierarchy node name interfaces).reports other = net.reports other ++
      if other = node ∧ (net.service node).itemCache name ≠ some interfaces ∧
        hierarchy.isCNRSRoot node = false then [(name, interfaces)] else [] := by
  rw [stored_eq]
  split
  · rename_i held
    simp [held]
  · rename_i missing
    by_cases same : other = node
    · subst same
      cases root : hierarchy.isCNRSRoot other with
      | true => simp [setReports]
      | false => simp [setReports, missing]
    · simp [same, setReports, setItem, setService]

theorem stored_rest (hierarchy : Hierarchy Node) (net : Network Node) (node : Node)
    (name : Name) (interfaces : CybertwinInterfaceList) :
    ∃ service reports, net.stored hierarchy node name interfaces =
      { net with service, reports } := by
  rw [stored_eq]
  split
  · exact ⟨net.service, net.reports, rfl⟩
  · exact ⟨_, _, rfl⟩

@[simp] theorem stored_up (hierarchy : Hierarchy Node) (net : Network Node) (node : Node)
    (name : Name) (interfaces : CybertwinInterfaceList) :
    (net.stored hierarchy node name interfaces).up = net.up := by
  obtain ⟨service, reports, same⟩ := net.stored_rest hierarchy node name interfaces
  rw [same]

@[simp] theorem stored_down (hierarchy : Hierarchy Node) (net : Network Node) (node : Node)
    (name : Name) (interfaces : CybertwinInterfaceList) :
    (net.stored hierarchy node name interfaces).down = net.down := by
  obtain ⟨service, reports, same⟩ := net.stored_rest hierarchy node name interfaces
  rw [same]

@[simp] theorem stored_sent (hierarchy : Hierarchy Node) (net : Network Node) (node : Node)
    (name : Name) (interfaces : CybertwinInterfaceList) :
    (net.stored hierarchy node name interfaces).sent = net.sent := by
  obtain ⟨service, reports, same⟩ := net.stored_rest hierarchy node name interfaces
  rw [same]

@[simp] theorem stored_lookups (hierarchy : Hierarchy Node) (net : Network Node) (node : Node)
    (name : Name) (interfaces : CybertwinInterfaceList) :
    (net.stored hierarchy node name interfaces).lookups = net.lookups := by
  obtain ⟨service, reports, same⟩ := net.stored_rest hierarchy node name interfaces
  rw [same]

@[simp] theorem stored_called (hierarchy : Hierarchy Node) (net : Network Node) (node : Node)
    (name : Name) (interfaces : CybertwinInterfaceList) :
    (net.stored hierarchy node name interfaces).called = net.called := by
  obtain ⟨service, reports, same⟩ := net.stored_rest hierarchy node name interfaces
  rw [same]

@[simp] theorem stored_queryCache (hierarchy : Hierarchy Node) (net : Network Node)
    (node other : Node) (name : Name) (interfaces : CybertwinInterfaceList) :
    ((net.stored hierarchy node name interfaces).service other).queryCache =
      (net.service other).queryCache := by
  rw [stored_eq]
  split
  · rfl
  · rw [setReports_service, setItem_queryCache]

@[simp] theorem stored_queryClientCache (hierarchy : Hierarchy Node) (net : Network Node)
    (node other : Node) (name : Name) (interfaces : CybertwinInterfaceList) :
    ((net.stored hierarchy node name interfaces).service other).queryClientCache =
      (net.service other).queryClientCache := by
  rw [stored_eq]
  split
  · rfl
  · rw [setReports_service, setItem_queryClientCache]

theorem setService_setService (net : Network Node) (node : Node) (first second : Service Node) :
    (net.setService node first).setService node second = net.setService node second := by
  simp [setService]

end Network

end FISim.NameResolution
