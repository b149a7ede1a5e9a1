import FISim.Lib.Transition
import FISim.Topology.Reader
import Mathlib.Data.List.Nodup

/-!
What the passes over a topology file keep.  The labels of the nodes and the maps
to them only grow, every interface address has one owner, and every settled edge
server and host has a superior that was made before it.
-/

namespace FISim.Topology

open Transition

namespace Reader

def labels (reader : Reader) : List (NodeKind × Name) :=
  reader.nodes.map fun node => (node.kind, node.name)

/-- The maps lead to nodes of the name that was looked up, and those of `m_nodeInfoMap` are servers. -/
structure Mapped (reader : Reader) : Prop where
  pointers : ∀ name id, reader.nodeName2Ptr name = some id →
    ∃ kind, reader.labels[id]? = some (kind, name)
  infos : ∀ name info id, reader.nodeInfoMap name = some info → info.node = some id →
    ∃ kind, kind ≠ .endHost ∧ reader.labels[id]? = some (kind, name)
  cores : ∀ (id : ℕ) (name : Name), reader.labels[id]? = some (NodeKind.coreServer, name) →
    (reader.coreNodesList.map NodeInfo.name)[id]? = some name

structure Same (before after : Reader) : Prop where
  labels : after.labels = before.labels
  nodeInfoMap : after.nodeInfoMap = before.nodeInfoMap
  nodeName2Ptr : after.nodeName2Ptr = before.nodeName2Ptr
  coreNodesList : after.coreNodesList = before.coreNodesList

/-- The core servers stay as they are, and a name that leads to a node goes on to lead to one. -/
structure Kept (before after : Reader) : Prop where
  cores : ∀ (id : ℕ) (node : CybertwinNode), before.nodes[id]? = some node →
    node.kind = .coreServer → after.nodes[id]? = some node
  pointers : ∀ name, (before.nodeName2Ptr name).isSome → (after.nodeName2Ptr name).isSome

theorem Kept.trans {first second third : Reader} (one : Kept first second)
    (two : Kept second third) : Kept first third :=
  ⟨fun id node held core => two.cores id node (one.cores id node held core) core,
    fun name there => two.pointers name (one.pointers name there)⟩

theorem kept_createNode (reader : Reader) (kind : NodeKind) (name : Name) :
    Kept reader (reader.createNode kind name).1 := by
  constructor
  · intro id node held _
    exact (List.getElem?_append_left (List.getElem?_eq_some_iff.mp held).1).trans held
  · intro other there
    change (Function.update reader.nodeName2Ptr name _ other).isSome
    by_cases same : other = name
    · rw [same, Function.update_self]
      rfl
    · rwa [Function.update_of_ne same]

def Hung (reader : Reader) (id : ℕ) (node : CybertwinNode) : Prop :=
  ∃ address lower, node.upperNodeAddress = some address ∧ reader.owner address = some lower ∧
    lower < id

structure Placed (reader : Reader) (settled id : ℕ) (node : CybertwinNode) : Prop where
  plain : node.isCRNSRoot = none
  core : node.kind = .coreServer → node.upperNodeAddress = none ∧ node.parents = []
  global : node.kind = .coreServer → ∀ address ∈ node.globalAddrList,
    reader.owner address = some id
  hung : node.kind ≠ .coreServer → id < settled → reader.Hung id node

/-- The nodes before `settled` have their superiors. -/
structure Sound (reader : Reader) (settled : ℕ) : Prop where
  unique : (reader.interfaces.map Prod.fst).Nodup
  each : ∀ id node, reader.nodes[id]? = some node → reader.Placed settled id node

structure Keeps (change : CybertwinNode → CybertwinNode) : Prop where
  kind : ∀ node, (change node).kind = node.kind
  name : ∀ node, (change node).name = node.name

theorem keeps_addLocalIp (address : UInt32) : Keeps (CybertwinNode.addLocalIp address) :=
  ⟨fun _ => rfl, fun _ => rfl⟩

theorem keeps_addGlobalIp (address : UInt32) : Keeps (CybertwinNode.addGlobalIp address) :=
  ⟨fun _ => rfl, fun _ => rfl⟩

theorem keeps_addParent (parent : ℕ) : Keeps (CybertwinNode.addParent parent) := by
  constructor
  · intro node
    unfold CybertwinNode.addParent
    split <;> rfl
  · intro node
    unfold CybertwinNode.addParent
    split <;> rfl

theorem keeps_setUpperNodeAddress (address : UInt32) :
    Keeps (CybertwinNode.setUpperNodeAddress address) :=
  ⟨fun _ => rfl, fun _ => rfl⟩

theorem keeps_setCNRSRoot : Keeps CybertwinNode.setCNRSRoot :=
  ⟨fun _ => rfl, fun _ => rfl⟩

theorem Same.refl (reader : Reader) : Same reader reader := ⟨rfl, rfl, rfl, rfl⟩

theorem Same.trans {first second third : Reader} (one : Same first second)
    (two : Same second third) : Same first third :=
  ⟨two.labels.trans one.labels, two.nodeInfoMap.trans one.nodeInfoMap,
    two.nodeName2Ptr.trans one.nodeName2Ptr, two.coreNodesList.trans one.coreNodesList⟩

theorem Same.length {before after : Reader} (same : Same before after) :
    after.nodes.length = before.nodes.length := by
  have lengths := congrArg List.length same.labels
  simpa [Reader.labels] using lengths

theorem Mapped.same {before after : Reader} (mapped : before.Mapped) (same : Same before after) :
    after.Mapped := by
  refine ⟨?_, ?_, ?_⟩
  · rw [same.labels, same.nodeName2Ptr]
    exact mapped.pointers
  · rw [same.labels, same.nodeInfoMap]
    exact mapped.infos
  · rw [same.labels, same.coreNodesList]
    exact mapped.cores

theorem label_of {reader : Reader} {id : ℕ} {node : CybertwinNode}
    (held : reader.nodes[id]? = some node) : reader.labels[id]? = some (node.kind, node.name) := by
  simp [labels, held]

theorem node_of {reader : Reader} {id : ℕ} {kind : NodeKind} {name : Name}
    (label : reader.labels[id]? = some (kind, name)) :
    ∃ node, reader.nodes[id]? = some node ∧ node.kind = kind ∧ node.name = name := by
  simp only [labels, List.getElem?_map, Option.map_eq_some_iff, Prod.mk.injEq] at label
  exact label

theorem modify_cases {reader : Reader} {id other : ℕ} {change : CybertwinNode → CybertwinNode}
    {node : CybertwinNode} (held : (reader.modify id change).nodes[other]? = some node) :
    (other ≠ id ∧ reader.nodes[other]? = some node) ∨
      (other = id ∧ ∃ before, reader.nodes[id]? = some before ∧ node = change before) := by
  simp only [modify, List.getElem?_modify] at held
  by_cases same : id = other
  · subst same
    simp only [if_true, Option.map_eq_map, Option.map_eq_some_iff] at held
    obtain ⟨before, found, rfl⟩ := held
    exact .inr ⟨rfl, before, found, rfl⟩
  · simp only [if_neg same] at held
    exact .inl ⟨Ne.symm same, by simpa using held⟩

theorem modify_self {reader : Reader} {id : ℕ} {change : CybertwinNode → CybertwinNode}
    {node : CybertwinNode} (held : reader.nodes[id]? = some node) :
    (reader.modify id change).nodes[id]? = some (change node) := by
  simp [modify, held]

theorem modify_other {reader : Reader} {id other : ℕ} {change : CybertwinNode → CybertwinNode}
    (different : other ≠ id) : (reader.modify id change).nodes[other]? = reader.nodes[other]? := by
  simp [modify, Ne.symm different]

theorem same_modify (reader : Reader) (id : ℕ) {change : CybertwinNode → CybertwinNode}
    (keeps : Keeps change) : Same reader (reader.modify id change) := by
  refine ⟨?_, rfl, rfl, rfl⟩
  refine List.ext_getElem? fun other => ?_
  simp only [labels, List.getElem?_map]
  by_cases same : other = id
  · subst same
    cases held : reader.nodes[other]? with
    | none => simp [modify, held]
    | some node => simp [modify_self held, keeps.kind, keeps.name]
  · rw [modify_other same]

theorem Sound.of_eq {before after : Reader} {settled : ℕ} (sound : before.Sound settled)
    (nodes : after.nodes = before.nodes) (interfaces : after.interfaces = before.interfaces) :
    after.Sound settled := by
  have owner : after.owner = before.owner := by
    funext address
    rw [Reader.owner, interfaces, Reader.owner]
  refine ⟨interfaces ▸ sound.unique, fun id node held => ?_⟩
  have placed := sound.each id node (nodes ▸ held)
  refine ⟨placed.plain, placed.core, owner ▸ placed.global, fun kind small => ?_⟩
  obtain ⟨address, lower, upper, owned, below⟩ := placed.hung kind small
  exact ⟨address, lower, upper, owner ▸ owned, below⟩

theorem Sound.modify {reader : Reader} {settled id : ℕ} {change : CybertwinNode → CybertwinNode}
    (sound : reader.Sound settled)
    (placed : ∀ node, reader.nodes[id]? = some node → reader.Placed settled id node →
      reader.Placed settled id (change node)) :
    (reader.modify id change).Sound settled := by
  refine ⟨sound.unique, ?_⟩
  intro other node held
  rcases modify_cases held with ⟨-, old⟩ | ⟨rfl, before, old, rfl⟩
  · have kept := sound.each other node old
    exact ⟨kept.plain, kept.core, kept.global, kept.hung⟩
  · have kept := placed before old (sound.each other before old)
    exact ⟨kept.plain, kept.core, kept.global, kept.hung⟩

theorem owner_of_mem {reader : Reader} {address : UInt32} {id : ℕ}
    (unique : (reader.interfaces.map Prod.fst).Nodup)
    (member : (address, id) ∈ reader.interfaces) : reader.owner address = some id := by
  obtain ⟨before, after, split⟩ := List.append_of_mem member
  refine List.lookup_eq_some_iff.mpr ⟨before, after, split, ?_⟩
  intro interface inside
  rw [split, List.map_append, List.map_cons] at unique
  have apart := (List.nodup_append.mp unique).2.2 interface.1 (List.mem_map_of_mem inside) address
    List.mem_cons_self
  simpa using Ne.symm apart

theorem owner_append {reader : Reader} {address : UInt32} {id : ℕ} (more : List (UInt32 × ℕ))
    (owned : reader.owner address = some id) :
    owner { reader with interfaces := reader.interfaces ++ more } address = some id := by
  simp only [owner, List.lookup_append] at *
  rw [owned, Option.some_or]

theorem Sound.assigned {reader : Reader} {settled : ℕ} (sound : reader.Sound settled)
    {more : List (UInt32 × ℕ)} (unique : ((reader.interfaces ++ more).map Prod.fst).Nodup) :
    Sound { reader with interfaces := reader.interfaces ++ more } settled := by
  refine ⟨unique, ?_⟩
  intro id node held
  have placed := sound.each id node held
  refine ⟨placed.plain, placed.core, ?_, ?_⟩
  · exact fun kind address member => owner_append more (placed.global kind address member)
  · intro kind small
    obtain ⟨address, lower, upper, owned, below⟩ := placed.hung kind small
    exact ⟨address, lower, upper, owner_append more owned, below⟩

theorem newAddress_spec {state after : Reader × AddressHelper} {node : ℕ} {addr : UInt32}
    (unique : (state.1.interfaces.map Prod.fst).Nodup)
    (ran : newAddress state node = some (after, addr)) :
    after.1 = { state.1 with interfaces := state.1.interfaces ++ [(addr, node)] } ∧
      ((state.1.interfaces ++ [(addr, node)]).map Prod.fst).Nodup := by
  simp only [newAddress] at ran
  split at ran
  · split at ran
    · cases ran
    · rename_i fresh
      obtain ⟨rfl, rfl⟩ := Prod.mk.inj (Option.some.inj ran)
      refine ⟨rfl, ?_⟩
      rw [List.map_append]
      refine List.Nodup.append unique (List.nodup_singleton _) ?_
      intro other old new
      rw [List.map_singleton, List.mem_singleton] at new
      subst new
      exact fresh (.inr old)
  · cases ran

theorem assignAddresses_spec {devices : List ℕ} {state : Reader × AddressHelper} {after : Reader}
    {addresses : List UInt32} (unique : (state.1.interfaces.map Prod.fst).Nodup)
    (ran : assignAddresses state devices = some (after, addresses)) :
    after = { state.1 with interfaces := state.1.interfaces ++ addresses.zip devices } ∧
      addresses.length = devices.length ∧
      ((state.1.interfaces ++ addresses.zip devices).map Prod.fst).Nodup := by
  induction devices generalizing state addresses with
  | nil =>
      obtain ⟨rfl, rfl⟩ := Prod.mk.inj (Option.some.inj ran)
      exact ⟨by simp, rfl, by simpa using unique⟩
  | cons node rest ih =>
      obtain ⟨⟨middle, addr⟩, first, ran⟩ := Option.bind_eq_some_iff.mp ran
      obtain ⟨⟨last, later⟩, second, ran⟩ := Option.bind_eq_some_iff.mp ran
      obtain ⟨rfl, rfl⟩ := Prod.mk.inj (Option.some.inj ran)
      obtain ⟨made, fresh⟩ := newAddress_spec unique first
      have grown : middle.1.interfaces = state.1.interfaces ++ [(addr, node)] := by rw [made]
      obtain ⟨rfl, lengths, nodup⟩ := ih (by rw [grown]; exact fresh) second
      rw [grown, List.append_assoc] at nodup
      refine ⟨?_, by simp [lengths], nodup⟩
      rw [grown, made, List.append_assoc]
      rfl

theorem assignIPAddresses_spec {reader after : Reader} {devices : List ℕ} {network : Subnet}
    {addresses : List UInt32} (unique : (reader.interfaces.map Prod.fst).Nodup)
    (ran : reader.assignIPAddresses devices network = some (after, addresses)) :
    after = { reader with interfaces := reader.interfaces ++ addresses.zip devices } ∧
      addresses.length = devices.length ∧
      ((reader.interfaces ++ addresses.zip devices).map Prod.fst).Nodup := by
  obtain ⟨helper, -, ran⟩ := Option.bind_eq_some_iff.mp ran
  exact assignAddresses_spec unique ran

theorem createP2PLink_spec {reader after : Reader} {settled source target : ℕ} {network : Subnet}
    {first second : UInt32} (sound : reader.Sound settled)
    (ran : reader.createP2PLink source target network = some (after, first, second)) :
    after = { reader with interfaces := after.interfaces } ∧ after.Sound settled ∧
      after.owner first = some source ∧ after.owner second = some target := by
  obtain ⟨⟨middle, addresses⟩, assigned, ran⟩ := Option.bind_eq_some_iff.mp ran
  obtain ⟨rfl, lengths, unique⟩ := assignIPAddresses_spec sound.unique assigned
  match addresses, lengths with
  | [one, two], _ =>
      obtain ⟨rfl, rest⟩ := Prod.mk.inj (Option.some.inj ran)
      obtain ⟨rfl, rfl⟩ := Prod.mk.inj rest
      have grown := sound.assigned unique
      exact ⟨rfl, grown, owner_of_mem unique (by simp), owner_of_mem unique (by simp)⟩

theorem Sound.settle {reader : Reader} {settled more : ℕ} (sound : reader.Sound settled)
    (hung : ∀ id node, reader.nodes[id]? = some node → node.kind ≠ .coreServer →
      settled ≤ id → id < more → reader.Hung id node) : reader.Sound more := by
  refine ⟨sound.unique, ?_⟩
  intro id node held
  have placed := sound.each id node held
  refine ⟨placed.plain, placed.core, placed.global, ?_⟩
  intro kind small
  by_cases old : id < settled
  · exact placed.hung kind old
  · exact hung id node held kind (by omega) small

theorem Sound.mono {reader : Reader} {settled fewer : ℕ} (sound : reader.Sound settled)
    (le : fewer ≤ settled) : reader.Sound fewer :=
  sound.settle fun _ _ _ _ _ _ => by omega

theorem labels_createNode (reader : Reader) (kind : NodeKind) (name : Name) :
    (reader.createNode kind name).1.labels = reader.labels ++ [(kind, name)] := by
  simp [createNode, labels]

theorem labels_length (reader : Reader) : reader.labels.length = reader.nodes.length := by
  simp [labels]

theorem label_append {reader : Reader} {label more : NodeKind × Name} {id : ℕ}
    (held : reader.labels[id]? = some label) : (reader.labels ++ [more])[id]? = some label := by
  obtain ⟨inside, -⟩ := List.getElem?_eq_some_iff.mp held
  exact (List.getElem?_append_left inside).trans held

theorem label_append_cases {reader : Reader} {label more : NodeKind × Name} {id : ℕ}
    (held : (reader.labels ++ [more])[id]? = some label) :
    reader.labels[id]? = some label ∨ (id = reader.nodes.length ∧ label = more) := by
  by_cases inside : id < reader.labels.length
  · rw [List.getElem?_append_left inside] at held
    exact .inl held
  · rw [List.getElem?_append_right (by omega)] at held
    obtain ⟨zero, same⟩ := List.getElem?_eq_some_iff.mp held
    rw [List.length_singleton] at zero
    rw [labels_length] at *
    exact .inr ⟨by omega, by simpa [show id - reader.nodes.length = 0 by omega] using same.symm⟩

theorem Sound.createNode {reader : Reader} {settled : ℕ} (sound : reader.Sound settled)
    (small : settled ≤ reader.nodes.length) (kind : NodeKind) (name : Name) :
    (reader.createNode kind name).1.Sound settled := by
  refine ⟨sound.unique, ?_⟩
  intro id node held
  change (reader.nodes ++ [_])[id]? = some node at held
  by_cases old : id < reader.nodes.length
  · rw [List.getElem?_append_left old] at held
    have placed := sound.each id node held
    exact ⟨placed.plain, placed.core, placed.global, placed.hung⟩
  · rw [List.getElem?_append_right (by omega)] at held
    obtain ⟨zero, same⟩ := List.getElem?_eq_some_iff.mp held
    have made : node = { kind, name } := by
      rw [List.getElem_singleton] at same
      exact same.symm
    subst made
    refine ⟨rfl, fun _ => ⟨rfl, rfl⟩, fun _ address member => ?_, fun _ => by omega⟩
    exact absurd member List.not_mem_nil

theorem Mapped.createNode {reader : Reader} (mapped : reader.Mapped) {kind : NodeKind}
    (other : kind ≠ .coreServer) (name : Name) : (reader.createNode kind name).1.Mapped := by
  refine ⟨?_, ?_, ?_⟩
  · intro searched id found
    rw [labels_createNode]
    change Function.update reader.nodeName2Ptr name _ searched = some id at found
    by_cases same : searched = name
    · subst same
      rw [Function.update_self, Option.some.injEq] at found
      subst found
      exact ⟨kind, by rw [← labels_length, List.getElem?_concat_length]⟩
    · rw [Function.update_of_ne same] at found
      obtain ⟨known, label⟩ := mapped.pointers searched id found
      exact ⟨known, label_append label⟩
  · intro searched info id found held
    obtain ⟨known, server, label⟩ := mapped.infos searched info id found held
    rw [labels_createNode]
    exact ⟨known, server, label_append label⟩
  · intro id searched label
    rw [labels_createNode] at label
    rcases label_append_cases label with old | ⟨-, new⟩
    · exact mapped.cores id searched old
    · exact absurd (Prod.mk.inj new).1.symm other

theorem Mapped.insertInfo {reader : Reader} (mapped : reader.Mapped) {name : Name}
    {nodeInfo : NodeInfo} (labelled : ∀ id, nodeInfo.node = some id →
      ∃ kind, kind ≠ .endHost ∧ reader.labels[id]? = some (kind, name)) :
    Mapped { reader with
      nodeInfoMap := Function.update reader.nodeInfoMap name (some nodeInfo) } := by
  refine ⟨mapped.pointers, ?_, mapped.cores⟩
  intro searched info id found held
  change Function.update reader.nodeInfoMap name _ searched = some info at found
  by_cases same : searched = name
  · subst same
    rw [Function.update_self, Option.some.injEq] at found
    subst found
    exact labelled id held
  · rw [Function.update_of_ne same] at found
    exact mapped.infos searched info id found held

/-- The names of the nodes so far are known, and `m_nodeInfoMap` leads to a node for each of them. -/
structure Declared (reader : Reader) (names : List Name) : Prop where
  found : ∀ name ∈ names, ∃ info id, reader.nodeInfoMap name = some info ∧ info.node = some id
  named : ∀ label ∈ reader.labels, label.2 ∈ names

theorem Declared.same {before after : Reader} {names : List Name}
    (declared : before.Declared names) (same : Same before after) : after.Declared names := by
  refine ⟨?_, ?_⟩
  · rw [same.nodeInfoMap]
    exact declared.found
  · rw [same.labels]
    exact declared.named

theorem Declared.createCloudNode {reader : Reader} {names : List Name}
    (declared : reader.Declared names) (kind : NodeKind) (node : CloudNode) :
    (reader.createCloudNode kind node).1.Declared (names ++ [node.name]) := by
  refine ⟨?_, ?_⟩
  · intro name member
    change ∃ info id, Function.update reader.nodeInfoMap node.name _ name = some info ∧
      info.node = some id
    by_cases same : name = node.name
    · subst same
      rw [Function.update_self]
      exact ⟨_, _, rfl, rfl⟩
    · rw [Function.update_of_ne same]
      exact declared.found name (by simpa [same] using member)
  · intro label member
    change label ∈ (reader.createNode kind node.name).1.labels at member
    rw [labels_createNode, List.mem_append, List.mem_singleton] at member
    rcases member with old | rfl
    · exact List.mem_append_left _ (declared.named label old)
    · exact List.mem_append_right _ List.mem_cons_self

end Reader

end FISim.Topology
