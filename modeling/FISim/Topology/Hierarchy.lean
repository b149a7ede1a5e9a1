import FISim.Lib.Chain
import FISim.Topology.Passes

/-!
The superiors that a topology file leads to form a tree, whose root is the
central node.
-/

namespace FISim.Topology

/-- Every edge server has a link, and its links lead to nodes that are declared before it. -/
def LinkedBack (declared : List Name) : List CloudNode → Prop
  | [] => True
  | node :: rest =>
      (node.links ≠ [] ∧ ∀ link ∈ node.links, link.target ∈ declared) ∧
        LinkedBack (declared ++ [node.name]) rest

instance : (declared : List Name) → (nodes : List CloudNode) → Decidable (LinkedBack declared nodes)
  | _, [] => isTrue trivial
  | declared, node :: rest =>
      have := instDecidableLinkedBack (declared ++ [node.name]) rest
      inferInstanceAs (Decidable (_ ∧ _))

namespace Reader

theorem same_createP2PLink {reader after : Reader} {settled source target : ℕ} {network : Subnet}
    {first second : UInt32} (sound : reader.Sound settled)
    (ran : reader.createP2PLink source target network = some (after, first, second)) :
    Same reader after := by
  obtain ⟨made, -⟩ := createP2PLink_spec sound ran
  rw [made]
  exact ⟨rfl, rfl, rfl, rfl⟩

theorem Placed.addGlobalIp {reader : Reader} {settled id : ℕ} {node : CybertwinNode}
    {address : UInt32} (placed : reader.Placed settled id node)
    (owned : reader.owner address = some id) :
    reader.Placed settled id (CybertwinNode.addGlobalIp address node) := by
  refine ⟨placed.plain, placed.core, ?_, placed.hung⟩
  intro kind other member
  rcases List.mem_append.mp member with old | new
  · exact placed.global kind other old
  · rw [List.mem_singleton.mp new]
    exact owned

theorem linkCoreServer_spec {reader after : Reader} {settled : ℕ} {nodeInfo : NodeInfo}
    {link : Link} (sound : reader.Sound settled)
    (ran : linkCoreServer nodeInfo reader link = some after) :
    Same reader after ∧ after.Sound settled := by
  obtain ⟨targetInfo, -, ran⟩ := Option.bind_eq_some_iff.mp ran
  obtain ⟨source, -, ran⟩ := Option.bind_eq_some_iff.mp ran
  obtain ⟨target, -, ran⟩ := Option.bind_eq_some_iff.mp ran
  split at ran
  · cases ran
    exact ⟨.refl reader, sound⟩
  · obtain ⟨⟨linked, first, second⟩, made, ran⟩ := Option.bind_eq_some_iff.mp ran
    obtain ⟨-, kept, firstOwned, secondOwned⟩ := createP2PLink_spec sound made
    rw [← Option.some.inj ran]
    refine ⟨((same_createP2PLink sound made).trans (same_modify _ _ (keeps_addGlobalIp first))).trans
      ⟨(same_modify _ _ (keeps_addGlobalIp second)).labels, rfl, rfl, rfl⟩, ?_⟩
    have one : (linked.modify source (CybertwinNode.addGlobalIp first)).Sound settled :=
      kept.modify fun _ _ placed => placed.addGlobalIp firstOwned
    have two := one.modify fun _ _ placed => placed.addGlobalIp secondOwned
    exact two.of_eq rfl rfl

theorem linkCoreServers_spec {reader after : Reader} {settled : ℕ} {nodeInfo : NodeInfo}
    (sound : reader.Sound settled) (ran : linkCoreServers reader nodeInfo = some after) :
    Same reader after ∧ after.Sound settled := by
  have keeps : ∀ (middle : Reader) link next, Same reader middle ∧ middle.Sound settled → True →
      linkCoreServer nodeInfo middle link = some next → Same reader next ∧ next.Sound settled := by
    intro middle link next kept _ stepped
    obtain ⟨same, later⟩ := linkCoreServer_spec kept.2 stepped
    exact ⟨kept.1.trans same, later⟩
  exact Transition.run_invariant keeps ⟨.refl reader, sound⟩
    (Transition.guarded_of_forall fun _ _ _ => trivial) ran

/-- What holds between the passes over the servers: all of them are settled. -/
structure Built (reader : Reader) (names : List Name) : Prop where
  mapped : reader.Mapped
  sound : reader.Sound reader.nodes.length
  declared : reader.Declared names

theorem Built.same {before after : Reader} {names : List Name} (built : before.Built names)
    (same : Same before after) (sound : after.Sound before.nodes.length) : after.Built names :=
  ⟨built.mapped.same same, same.length ▸ sound, built.declared.same same⟩

theorem createCoreServer_spec {reader : Reader} {names : List Name} (built : reader.Built names)
    (even : reader.coreNodesList.map NodeInfo.name = names)
    (cores : ∀ label ∈ reader.labels, label.1 = NodeKind.coreServer)
    (counted : reader.nodes.length = names.length) (node : CloudNode) :
    (reader.createCoreServer node).Built (names ++ [node.name]) ∧
      (reader.createCoreServer node).coreNodesList.map NodeInfo.name = names ++ [node.name] ∧
      (∀ label ∈ (reader.createCoreServer node).labels, label.1 = NodeKind.coreServer) ∧
      (reader.createCoreServer node).nodes.length = (names ++ [node.name]).length := by
  have labels : (reader.createCoreServer node).labels =
      reader.labels ++ [(.coreServer, node.name)] := labels_createNode reader .coreServer node.name
  have list : (reader.createCoreServer node).coreNodesList.map NodeInfo.name =
      names ++ [node.name] := by
    rw [← even]
    exact List.map_append
  have all : ∀ label ∈ (reader.createCoreServer node).labels, label.1 = NodeKind.coreServer := by
    intro label member
    rw [labels, List.mem_append, List.mem_singleton] at member
    rcases member with old | rfl
    · exact cores label old
    · rfl
  have length : (reader.createCoreServer node).nodes.length = (names ++ [node.name]).length := by
    rw [← labels_length, labels, List.length_append, List.length_append, labels_length, counted]
    rfl
  refine ⟨⟨⟨?_, ?_, ?_⟩, ?_, ?_⟩, list, all, length⟩
  · intro name id found
    rw [labels]
    change Function.update reader.nodeName2Ptr node.name _ name = some id at found
    by_cases same : name = node.name
    · subst same
      rw [Function.update_self, Option.some.injEq] at found
      subst found
      exact ⟨.coreServer, by rw [← labels_length, List.getElem?_concat_length]⟩
    · rw [Function.update_of_ne same] at found
      obtain ⟨kind, label⟩ := built.mapped.pointers name id found
      exact ⟨kind, label_append label⟩
  · intro name info id found held
    rw [labels]
    change Function.update reader.nodeInfoMap node.name _ name = some info at found
    by_cases same : name = node.name
    · subst same
      rw [Function.update_self, Option.some.injEq] at found
      subst found
      cases held
      exact ⟨.coreServer, by decide, by rw [← labels_length, List.getElem?_concat_length]⟩
    · rw [Function.update_of_ne same] at found
      obtain ⟨kind, server, label⟩ := built.mapped.infos name info id found held
      exact ⟨kind, server, label_append label⟩
  · intro id name label
    rw [labels] at label
    rw [list]
    rcases label_append_cases label with old | ⟨rfl, new⟩
    · have known := built.mapped.cores id name old
      rw [even] at known
      obtain ⟨inside, -⟩ := List.getElem?_eq_some_iff.mp known
      exact (List.getElem?_append_left inside).trans known
    · rw [counted, List.getElem?_concat_length]
      exact congrArg some (Prod.mk.inj new).2.symm
  · have made : (reader.createCoreServer node).Sound reader.nodes.length :=
      (built.sound.createNode (Nat.le_refl _) .coreServer node.name).of_eq rfl rfl
    refine made.settle fun id other held kind => ?_
    exact absurd (all _ (List.mem_of_getElem? (label_of held))) kind
  · exact ⟨(built.declared.createCloudNode .coreServer node).found,
      (built.declared.createCloudNode .coreServer node).named⟩

theorem createCoreServers_spec (nodes : List CloudNode) {reader : Reader} {names : List Name}
    (built : reader.Built names) (even : reader.coreNodesList.map NodeInfo.name = names)
    (cores : ∀ label ∈ reader.labels, label.1 = NodeKind.coreServer)
    (counted : reader.nodes.length = names.length) :
    (nodes.foldl createCoreServer reader).Built (names ++ nodes.map CloudNode.name) ∧
      (nodes.foldl createCoreServer reader).coreNodesList.map NodeInfo.name =
        names ++ nodes.map CloudNode.name := by
  induction nodes generalizing reader names with
  | nil => simpa using ⟨built, even⟩
  | cons node rest ih =>
      obtain ⟨one, two, three, four⟩ := createCoreServer_spec built even cores counted node
      have later := ih one two three four
      rwa [List.append_assoc] at later

theorem built_empty : Built {} [] := by
  refine ⟨⟨?_, ?_, ?_⟩, ⟨List.nodup_nil, ?_⟩, ⟨?_, ?_⟩⟩
  · exact fun _ _ found => by cases found
  · exact fun _ _ _ found => by cases found
  · exact fun _ _ label => by cases label
  · exact fun _ _ held => by cases held
  · exact fun _ member => absurd member List.not_mem_nil
  · exact fun _ member => absurd member List.not_mem_nil

theorem createCoreServers_built (nodes : List CloudNode) :
    (nodes.foldl createCoreServer {}).Built (nodes.map CloudNode.name) ∧
      (nodes.foldl createCoreServer {}).coreNodesList.map NodeInfo.name =
        nodes.map CloudNode.name :=
  createCoreServers_spec nodes built_empty rfl (fun _ member => absurd member List.not_mem_nil) rfl

theorem parseCoreCloud_same {nodes : List CloudNode} {reader : Reader}
    (ran : parseCoreCloud {} nodes = some reader) :
    Same (nodes.foldl createCoreServer {}) reader ∧
      reader.Sound (nodes.foldl createCoreServer {}).nodes.length := by
  obtain ⟨built, -⟩ := createCoreServers_built nodes
  have keeps : ∀ (middle : Reader) info next,
      Same (nodes.foldl createCoreServer {}) middle ∧
        middle.Sound (nodes.foldl createCoreServer {}).nodes.length → True →
      linkCoreServers middle info = some next →
        Same (nodes.foldl createCoreServer {}) next ∧
          next.Sound (nodes.foldl createCoreServer {}).nodes.length := by
    intro middle info next kept _ stepped
    obtain ⟨same, later⟩ := linkCoreServers_spec kept.2 stepped
    exact ⟨kept.1.trans same, later⟩
  exact Transition.run_invariant keeps ⟨.refl _, built.sound⟩
    (Transition.guarded_of_forall fun _ _ _ => trivial) ran

theorem parseCoreCloud_spec {nodes : List CloudNode} {reader : Reader}
    (ran : parseCoreCloud {} nodes = some reader) :
    reader.Built (nodes.map CloudNode.name) ∧
      reader.coreNodesList.map NodeInfo.name = nodes.map CloudNode.name := by
  obtain ⟨built, even⟩ := createCoreServers_built nodes
  obtain ⟨same, sound⟩ := parseCoreCloud_same ran
  exact ⟨built.same same sound, by rw [same.coreNodesList, even]⟩

theorem Placed.attach {reader : Reader} {settled id lower : ℕ} {node : CybertwinNode}
    {address : UInt32} (placed : reader.Placed settled id node) (other : node.kind ≠ .coreServer)
    (owned : reader.owner address = some lower) (below : lower < id) (parent more : ℕ) :
    reader.Placed more id
      (CybertwinNode.setUpperNodeAddress address (CybertwinNode.addParent parent node)) := by
  have kind := (keeps_addParent parent).kind node
  have plain : (CybertwinNode.addParent parent node).isCRNSRoot = node.isCRNSRoot := by
    unfold CybertwinNode.addParent
    split <;> rfl
  refine ⟨plain.trans placed.plain, ?_, ?_, ?_⟩
  · exact fun core => absurd (kind ▸ core) other
  · exact fun core => absurd (kind ▸ core) other
  · exact fun _ _ => ⟨address, lower, rfl, owned, below⟩

theorem Sound.attach {reader : Reader} {id lower : ℕ} {kind : NodeKind} {name : Name}
    {address : UInt32} (sound : reader.Sound id) (label : reader.labels[id]? = some (kind, name))
    (other : kind ≠ .coreServer) (owned : reader.owner address = some lower) (below : lower < id)
    (parent : ℕ) :
    Sound ((reader.modify id (CybertwinNode.addParent parent)).modify id
      (CybertwinNode.setUpperNodeAddress address)) (id + 1) := by
  obtain ⟨node, held, rfl, -⟩ := node_of label
  have final : ((reader.modify id (CybertwinNode.addParent parent)).modify id
      (CybertwinNode.setUpperNodeAddress address)).nodes[id]? =
        some (CybertwinNode.setUpperNodeAddress address (CybertwinNode.addParent parent node)) :=
    modify_self (modify_self held)
  refine ⟨sound.unique, fun searched found member => ?_⟩
  by_cases same : searched = id
  · subst same
    rw [final, Option.some.injEq] at member
    subst member
    have placed := (sound.each searched node held).attach other owned below parent (searched + 1)
    exact ⟨placed.plain, placed.core, placed.global, placed.hung⟩
  · rw [modify_other same, modify_other same] at member
    have placed := sound.each searched found member
    exact ⟨placed.plain, placed.core, placed.global, fun kind small => placed.hung kind (by omega)⟩

theorem same_attach (reader : Reader) (id parent : ℕ) (address : UInt32) :
    Same reader ((reader.modify id (CybertwinNode.addParent parent)).modify id
      (CybertwinNode.setUpperNodeAddress address)) :=
  (same_modify _ _ (keeps_addParent parent)).trans (same_modify _ _ (keeps_setUpperNodeAddress address))

theorem linkEdgeServer_spec {reader after : Reader} {edgeServer : ℕ} {name : Name} {link : Link}
    (sound : reader.Sound edgeServer)
    (label : reader.labels[edgeServer]? = some (.edgeServer, name))
    {targetInfo : NodeInfo} {target : ℕ} (found : reader.nodeInfoMap link.target = some targetInfo)
    (node : targetInfo.node = some target) (below : target < edgeServer)
    (ran : linkEdgeServer edgeServer reader link = some after) :
    Same reader after ∧ after.Sound (edgeServer + 1) := by
  simp only [linkEdgeServer, found, node, Option.bind_eq_bind, Option.bind_some] at ran
  obtain ⟨⟨linked, first, second⟩, made, ran⟩ := Option.bind_eq_some_iff.mp ran
  obtain ⟨-, kept, firstOwned, secondOwned⟩ := createP2PLink_spec sound made
  have same := same_createP2PLink sound made
  rw [← Option.some.inj ran]
  refine ⟨(same.trans (same_attach linked edgeServer target second)).trans
    (same_modify _ _ (keeps_addGlobalIp first)), ?_⟩
  have attached := kept.attach (by rw [same.labels, label]) (by decide) secondOwned below target
  exact attached.modify fun _ _ placed => placed.addGlobalIp firstOwned

theorem linkEdgeServers_spec {links : List Link} {reader after : Reader} {edgeServer settled : ℕ}
    {name : Name} (sound : reader.Sound settled) (enough : edgeServer ≤ settled)
    (linked : links ≠ [] ∨ settled = edgeServer + 1)
    (label : reader.labels[edgeServer]? = some (.edgeServer, name))
    (targets : ∀ link ∈ links, ∃ info target, reader.nodeInfoMap link.target = some info ∧
      info.node = some target ∧ target < edgeServer)
    (ran : links.foldlM (linkEdgeServer edgeServer) reader = some after) :
    Same reader after ∧ after.Sound (edgeServer + 1) := by
  induction links generalizing reader settled with
  | nil =>
      cases ran
      rcases linked with empty | rfl
      · exact absurd rfl empty
      · exact ⟨.refl _, sound⟩
  | cons link rest ih =>
      rw [List.foldlM_cons] at ran
      obtain ⟨middle, first, later⟩ := Option.bind_eq_some_iff.mp ran
      obtain ⟨info, target, found, node, below⟩ := targets link List.mem_cons_self
      obtain ⟨same, settledMore⟩ :=
        linkEdgeServer_spec (sound.mono enough) label found node below first
      obtain ⟨more, final⟩ := ih settledMore (by omega) (.inr rfl) (by rw [same.labels, label])
        (fun other member => by
          rw [same.nodeInfoMap]
          exact targets other (List.mem_cons_of_mem _ member)) later
      exact ⟨same.trans more, final⟩

theorem parseEdgeServer_spec {reader after : Reader} {names : List Name} {node : CloudNode}
    (built : reader.Built names) (fresh : node.name ∉ names) (linked : node.links ≠ [])
    (back : ∀ link ∈ node.links, link.target ∈ names)
    (ran : parseEdgeServer reader node = some after) :
    after.Built (names ++ [node.name]) ∧ after.coreNodesList = reader.coreNodesList := by
  have labels : (reader.createCloudNode .edgeServer node).1.labels =
      reader.labels ++ [(.edgeServer, node.name)] :=
    labels_createNode reader .edgeServer node.name
  have label : (reader.createCloudNode .edgeServer node).1.labels[reader.nodes.length]? =
      some (.edgeServer, node.name) := by
    rw [labels, ← labels_length, List.getElem?_concat_length]
  have mapped : (reader.createCloudNode .edgeServer node).1.Mapped := by
    refine (built.mapped.createNode (by decide) node.name).insertInfo fun id made => ?_
    cases made
    exact ⟨.edgeServer, by decide, label⟩
  have sound : (reader.createCloudNode .edgeServer node).1.Sound reader.nodes.length :=
    (built.sound.createNode (Nat.le_refl _) .edgeServer node.name).of_eq rfl rfl
  have declared := built.declared.createCloudNode .edgeServer node
  have length : (reader.createCloudNode .edgeServer node).1.nodes.length =
      reader.nodes.length + 1 := by
    rw [← labels_length, labels, List.length_append, labels_length]
    rfl
  have targets : ∀ link ∈ node.links, ∃ info target,
      (reader.createCloudNode .edgeServer node).1.nodeInfoMap link.target = some info ∧
        info.node = some target ∧ target < reader.nodes.length := by
    intro link member
    have known := back link member
    obtain ⟨info, target, found, made⟩ := built.declared.found link.target known
    have other : link.target ≠ node.name := by
      intro same
      exact fresh (same ▸ known)
    obtain ⟨kind, -, held⟩ := built.mapped.infos link.target info target found made
    obtain ⟨inside, -⟩ := List.getElem?_eq_some_iff.mp held
    rw [labels_length] at inside
    exact ⟨info, target, (Function.update_of_ne other _ _).trans found, made, inside⟩
  obtain ⟨same, final⟩ := linkEdgeServers_spec sound (Nat.le_refl _) (.inl linked) label targets ran
  refine ⟨⟨mapped.same same, ?_, declared.same same⟩, same.coreNodesList⟩
  rw [same.length, length]
  exact final

theorem parseEdgeCloud_spec {nodes : List CloudNode} {reader after : Reader} {names : List Name}
    (built : reader.Built names) (linked : LinkedBack names nodes)
    (distinct : (names ++ nodes.map CloudNode.name).Nodup)
    (ran : parseEdgeCloud reader nodes = some after) :
    after.Mapped ∧ after.Sound after.nodes.length ∧
      after.coreNodesList = reader.coreNodesList := by
  induction nodes generalizing reader names with
  | nil =>
      cases ran
      exact ⟨built.mapped, built.sound, rfl⟩
  | cons node rest ih =>
      obtain ⟨⟨nonempty, back⟩, later⟩ := linked
      rw [List.map_cons, ← List.singleton_append, ← List.append_assoc] at distinct
      have fresh : node.name ∉ names := by
        have apart := (List.nodup_append.mp (List.nodup_append.mp distinct).1).2.2
        exact fun member => apart _ member _ List.mem_cons_self rfl
      obtain ⟨middle, first, rest⟩ := Option.bind_eq_some_iff.mp
        (List.foldlM_cons.symm.trans ran)
      obtain ⟨grown, list⟩ := parseEdgeServer_spec built fresh nonempty back first
      obtain ⟨mapped, sound, cores⟩ := ih grown later distinct rest
      exact ⟨mapped, sound, cores.trans list⟩

def hostLabel (cluster : Name) (index : ℕ) : NodeKind × Name := (.endHost, hostName cluster index)

theorem createNodes_spec (cluster : Name) (indices : List ℕ) {reader : Reader} {settled : ℕ}
    (mapped : reader.Mapped) (sound : reader.Sound settled)
    (small : settled ≤ reader.nodes.length) :
    let after := indices.foldl
      (fun reader index => (reader.createNode .endHost (hostName cluster index)).1) reader
    after.Mapped ∧ after.Sound settled ∧
      after.labels = reader.labels ++ indices.map (hostLabel cluster) ∧
      after.nodeInfoMap = reader.nodeInfoMap ∧ after.coreNodesList = reader.coreNodesList := by
  induction indices generalizing reader with
  | nil => exact ⟨mapped, sound, (List.append_nil _).symm, rfl, rfl⟩
  | cons index rest ih =>
      have labels := labels_createNode reader .endHost (hostName cluster index)
      have room : settled ≤ (reader.createNode .endHost (hostName cluster index)).1.nodes.length := by
        rw [← labels_length, labels, List.length_append, labels_length]
        omega
      obtain ⟨one, two, three, four, five⟩ := ih (mapped.createNode (by decide) _)
        (sound.createNode small .endHost (hostName cluster index)) room
      refine ⟨one, two, ?_, four, five⟩
      rw [List.foldl_cons, three, labels, List.append_assoc]
      rfl

theorem addLocalIps_spec (hosts : List (ℕ × UInt32)) {reader : Reader} {settled : ℕ}
    (sound : reader.Sound settled) :
    let after := hosts.foldl
      (fun reader host => reader.modify host.1 (CybertwinNode.addLocalIp host.2)) reader
    Same reader after ∧ after.Sound settled := by
  induction hosts generalizing reader with
  | nil => exact ⟨.refl reader, sound⟩
  | cons host rest ih =>
      have kept : (reader.modify host.1 (CybertwinNode.addLocalIp host.2)).Sound settled :=
        sound.modify fun _ _ placed => ⟨placed.plain, placed.core, placed.global, placed.hung⟩
      obtain ⟨same, later⟩ := ih kept
      exact ⟨(same_modify _ _ (keeps_addLocalIp host.2)).trans same, later⟩

/-- What a cluster adds to the nodes, before it is linked to its gateway. -/
structure Clustered (before after : Reader) (cluster : EndCluster) : Prop where
  mapped : after.Mapped
  sound : after.Sound before.nodes.length
  labels : after.labels = before.labels ++ (List.range cluster.numNodes).map (hostLabel cluster.name)
  nodeInfoMap : after.nodeInfoMap = before.nodeInfoMap
  coreNodesList : after.coreNodesList = before.coreNodesList

theorem createLan_spec {reader after : Reader} {cluster : EndCluster} {leader : ℕ}
    {hosts : List ℕ} (mapped : reader.Mapped) (sound : reader.Sound reader.nodes.length)
    (ran : reader.createLan cluster = some (after, leader, hosts)) :
    hosts = List.range' reader.nodes.length cluster.numNodes ∧ Clustered reader after cluster := by
  obtain ⟨⟨numbered, addresses⟩, assigned, ran⟩ := Option.bind_eq_some_iff.mp ran
  obtain ⟨first, -, ran⟩ := Option.bind_eq_some_iff.mp ran
  obtain ⟨rfl, rest⟩ := Prod.mk.inj (Option.some.inj ran)
  obtain ⟨-, rfl⟩ := Prod.mk.inj rest
  obtain ⟨one, two, three, four, five⟩ := createNodes_spec cluster.name
    (List.range cluster.numNodes) mapped sound (Nat.le_refl _)
  obtain ⟨rfl, -, unique⟩ := assignIPAddresses_spec two.unique assigned
  obtain ⟨same, kept⟩ := addLocalIps_spec
    ((List.range' reader.nodes.length cluster.numNodes).zip addresses) (two.assigned unique)
  refine ⟨rfl, ⟨one.same ⟨same.labels, same.nodeInfoMap, same.nodeName2Ptr, same.coreNodesList⟩,
    kept, ?_, ?_, ?_⟩⟩
  · exact same.labels.trans three
  · exact same.nodeInfoMap.trans four
  · exact same.coreNodesList.trans five

theorem createNetwork_spec {reader after : Reader} {cluster : EndCluster} {leader : ℕ}
    {hosts : List ℕ} (mapped : reader.Mapped) (sound : reader.Sound reader.nodes.length)
    (ran : reader.createNetwork cluster = some (after, leader, hosts)) :
    hosts = List.range' reader.nodes.length cluster.numNodes ∧ Clustered reader after cluster := by
  unfold createNetwork at ran
  split at ran
  · exact createLan_spec mapped sound ran
  · exact createLan_spec mapped sound ran
  all_goals cases ran

theorem attachHosts_spec {count start gateway : ℕ} {address : UInt32} {reader : Reader}
    (sound : reader.Sound start)
    (hosts : ∀ id, start ≤ id → id < start + count →
      ∃ name, reader.labels[id]? = some (NodeKind.endHost, name))
    (owned : reader.owner address = some gateway) (below : gateway < start) :
    let after := (List.range' start count).foldl (attachHost gateway address) reader
    Same reader after ∧ after.Sound (start + count) ∧ after.interfaces = reader.interfaces := by
  induction count generalizing start reader with
  | zero => exact ⟨.refl reader, sound, rfl⟩
  | succ count ih =>
      obtain ⟨name, label⟩ := hosts start (Nat.le_refl _) (by omega)
      have same : Same reader (attachHost gateway address reader start) :=
        same_attach reader start gateway address
      have settled : (attachHost gateway address reader start).Sound (start + 1) :=
        sound.attach label (by decide) owned below gateway
      obtain ⟨more, final, interfaces⟩ := ih settled (fun id low high => by
        rw [same.labels]
        exact hosts id (by omega) (by omega)) owned (by omega)
      refine ⟨same.trans more, ?_, interfaces⟩
      rw [show start + (count + 1) = start + 1 + count by omega]
      exact final

theorem parseEndCluster_spec {reader after : Reader} {cluster : EndCluster}
    (mapped : reader.Mapped) (sound : reader.Sound reader.nodes.length)
    (ran : parseEndCluster reader cluster = some after) :
    after.Mapped ∧ after.Sound after.nodes.length ∧
      after.coreNodesList = reader.coreNodesList := by
  have known : Mapped { reader with
      nodeInfoMap :=
        Function.update reader.nodeInfoMap cluster.name (some { name := cluster.name }) } :=
    mapped.insertInfo fun _ none => by cases none
  obtain ⟨⟨built, router, endNodes⟩, created, ran⟩ := Option.bind_eq_some_iff.mp ran
  obtain ⟨link, -, ran⟩ := Option.bind_eq_some_iff.mp ran
  obtain ⟨gatewayInfo, found, ran⟩ := Option.bind_eq_some_iff.mp ran
  obtain ⟨gateway, node, ran⟩ := Option.bind_eq_some_iff.mp ran
  obtain ⟨⟨linked, routerAddress, address⟩, made, ran⟩ := Option.bind_eq_some_iff.mp ran
  obtain ⟨edgeServer, -, ran⟩ := Option.bind_eq_some_iff.mp ran
  obtain ⟨rfl, cluster'⟩ := createNetwork_spec known (sound.of_eq rfl rfl) created
  obtain ⟨-, kept, -, owned⟩ := createP2PLink_spec cluster'.sound made
  have same := same_createP2PLink cluster'.sound made
  have count : linked.nodes.length = reader.nodes.length + cluster.numNodes := by
    rw [same.length, ← labels_length, cluster'.labels, List.length_append, labels_length]
    simp
  have hosts : ∀ id, reader.nodes.length ≤ id → id < reader.nodes.length + cluster.numNodes →
      ∃ name, linked.labels[id]? = some (NodeKind.endHost, name) := by
    intro id low high
    rw [same.labels, cluster'.labels, List.getElem?_append_right (by rw [labels_length]; exact low)]
    refine ⟨hostName cluster.name (id - reader.nodes.length), ?_⟩
    rw [labels_length, List.getElem?_map, List.getElem?_range (by simp only []; omega)]
    rfl
  have below : gateway < reader.nodes.length := by
    obtain ⟨kind, server, label⟩ := cluster'.mapped.infos link.target gatewayInfo gateway found node
    rw [← same.labels] at label
    by_contra above
    obtain ⟨inside, -⟩ := List.getElem?_eq_some_iff.mp label
    rw [labels_length, count] at inside
    obtain ⟨name, host⟩ := hosts gateway (by omega) inside
    rw [host] at label
    exact server (Prod.mk.inj (Option.some.inj label)).1.symm
  obtain ⟨more, settled, interfaces⟩ := attachHosts_spec kept hosts owned below
  rw [← Option.some.inj ran]
  have last := more.trans (same_modify _ gateway (keeps_addGlobalIp address))
  refine ⟨(cluster'.mapped.same same).same last, ?_, ?_⟩
  · rw [last.length, count]
    refine settled.modify fun _ _ placed => placed.addGlobalIp ?_
    rw [Reader.owner, interfaces]
    exact owned
  · exact last.coreNodesList.trans (same.coreNodesList.trans cluster'.coreNodesList)

theorem parseAccessNetwork_spec {nodes : List EndCluster} {reader after : Reader}
    (mapped : reader.Mapped) (sound : reader.Sound reader.nodes.length)
    (ran : parseAccessNetwork reader nodes = some after) :
    after.Mapped ∧ after.Sound after.nodes.length ∧
      after.coreNodesList = reader.coreNodesList := by
  have keeps : ∀ (middle : Reader) cluster next,
      middle.Mapped ∧ middle.Sound middle.nodes.length ∧
        middle.coreNodesList = reader.coreNodesList → True →
      parseEndCluster middle cluster = some next →
        next.Mapped ∧ next.Sound next.nodes.length ∧
          next.coreNodesList = reader.coreNodesList := by
    intro middle cluster next kept _ stepped
    obtain ⟨one, two, three⟩ := parseEndCluster_spec kept.1 kept.2.1 stepped
    exact ⟨one, two, three.trans kept.2.2⟩
  exact Transition.run_invariant keeps ⟨mapped, sound, rfl⟩
    (Transition.guarded_of_forall fun _ _ _ => trivial) ran

def raise (centralNode : Name) (address : UInt32) (done : List Name) (node : CybertwinNode) :
    CybertwinNode :=
  if node.kind = .coreServer ∧ node.name ≠ centralNode ∧ node.name ∈ done then
    CybertwinNode.setUpperNodeAddress address node
  else node

theorem raise_concat (centralNode : Name) (address : UInt32) (done : List Name) (name : Name)
    (node : CybertwinNode) :
    raise centralNode address (done ++ [name]) node =
      if node.kind = .coreServer ∧ node.name ≠ centralNode ∧ node.name = name then
        CybertwinNode.setUpperNodeAddress address (raise centralNode address done node)
      else raise centralNode address done node := by
  unfold raise
  by_cases core : node.kind = .coreServer ∧ node.name ≠ centralNode
  · by_cases last : node.name = name
    · subst last
      by_cases old : node.name ∈ done
      · simp [core.1, core.2, old, CybertwinNode.setUpperNodeAddress]
      · simp [core.1, core.2, old]
    · simp [core.1, core.2, last]
  · have outside : ∀ rest : Prop, ¬ (node.kind = .coreServer ∧ node.name ≠ centralNode ∧ rest) :=
      fun _ all => core ⟨all.1, all.2.1⟩
    rw [if_neg (outside _), if_neg (outside _), if_neg (outside _)]

theorem configUpper_spec {reader next : Reader} {centralNode : Name} {address : UInt32}
    {done : List Name} {nodeInfo : NodeInfo} (mapped : reader.Mapped)
    (distinct : (reader.coreNodesList.map NodeInfo.name).Nodup)
    (ran : configUpper centralNode address
      { reader with nodes := reader.nodes.map (raise centralNode address done) } nodeInfo =
        some next) :
    next = { reader with
      nodes := reader.nodes.map (raise centralNode address (done ++ [nodeInfo.name])) } := by
  unfold configUpper at ran
  split at ran
  · rename_i central
    rw [← Option.some.inj ran]
    congr 1
    refine List.map_congr_left fun node _ => ?_
    rw [raise_concat, if_neg]
    exact fun all => all.2.1 (all.2.2.trans central)
  · rename_i other
    obtain ⟨pointer, found, ran⟩ := Option.bind_eq_some_iff.mp ran
    obtain ⟨node, cast, ran⟩ := Option.bind_eq_some_iff.mp ran
    obtain ⟨held, core⟩ := Option.filter_eq_some_iff.mp cast
    obtain ⟨kind, label⟩ := mapped.pointers nodeInfo.name pointer found
    obtain ⟨before, old, rfl, named⟩ := node_of label
    have isCore : before.kind = .coreServer := by
      simp only [List.getElem?_map, old, Option.map_some, Option.some.injEq] at held
      rw [← held] at core
      unfold raise at core
      split at core
      · rename_i all
        exact all.1
      · simpa using core
    rw [← Option.some.inj ran]
    unfold modify
    congr 1
    refine List.ext_getElem? fun id => ?_
    by_cases same : pointer = id
    · subst same
      rw [List.getElem?_modify_eq, List.getElem?_map, List.getElem?_map, old, Option.map_some,
        Option.map_some, raise_concat, if_pos ⟨isCore, named ▸ other, named⟩]
      rfl
    · rw [List.getElem?_modify_ne _ _ same, List.getElem?_map, List.getElem?_map]
      cases there : reader.nodes[id]? with
      | none => rfl
      | some another =>
          rw [Option.map_some, Option.map_some, raise_concat, if_neg]
          rintro ⟨otherCore, -, sameName⟩
          have one := mapped.cores pointer _ (isCore ▸ label)
          have two := mapped.cores id _ (otherCore ▸ label_of there)
          rw [sameName, ← one] at two
          obtain ⟨inside, -⟩ := List.getElem?_eq_some_iff.mp one
          exact same ((List.getElem?_inj inside distinct).mp two.symm)

theorem configUppers_spec {list : List NodeInfo} {reader after : Reader} {centralNode : Name}
    {address : UInt32} {done : List Name} (mapped : reader.Mapped)
    (distinct : (reader.coreNodesList.map NodeInfo.name).Nodup)
    (ran : list.foldlM (configUpper centralNode address)
      { reader with nodes := reader.nodes.map (raise centralNode address done) } = some after) :
    after = { reader with
      nodes := reader.nodes.map (raise centralNode address (done ++ list.map NodeInfo.name)) } := by
  induction list generalizing done with
  | nil =>
      rw [List.map_nil, List.append_nil]
      exact (Option.some.inj ran).symm
  | cons nodeInfo rest ih =>
      rw [List.foldlM_cons] at ran
      obtain ⟨middle, first, later⟩ := Option.bind_eq_some_iff.mp ran
      rw [configUpper_spec mapped distinct first] at later
      rw [ih later, List.map_cons, List.append_assoc, List.singleton_append]

/-- Every node climbs to the central node, which is the only root; `memory` is what the nodes'
members hold that were never written. -/
structure RootedTree (memory : ℕ → Bool) (reader : Reader) (central : ℕ) : Prop where
  unique : (reader.interfaces.map Prod.fst).Nodup
  top : reader.superior central = none
  climbs : ∀ id < reader.nodes.length,
    ∃ steps, Chain.climb reader.superior steps id = some central
  roots : ∀ id node, reader.nodes[id]? = some node →
    (reader.installCNRSApp node = some none ↔ id = central)
  marked : ∀ id node, reader.nodes[id]? = some node →
    (node.isCNRSRoot (memory id) = true ↔ id = central)

theorem installCNRSApp_of_upper {reader : Reader} {node : CybertwinNode} {address : UInt32}
    (upper : node.upperNodeAddress = some address) :
    reader.installCNRSApp node = some (some address) := by
  simp [installCNRSApp, upper]

/-- What `ConfigCNRS` leaves at each node. -/
structure Configured (before after : Reader) (central : ℕ) (address : UInt32) : Prop where
  interfaces : after.interfaces = before.interfaces
  length : after.nodes.length = before.nodes.length
  root : ∀ node, before.nodes[central]? = some node →
    after.nodes[central]? = some (CybertwinNode.setCNRSRoot node)
  core : ∀ (id : ℕ) (node : CybertwinNode), before.nodes[id]? = some node →
    node.kind = .coreServer → id ≠ central →
    after.nodes[id]? = some (CybertwinNode.setUpperNodeAddress address node)
  rest : ∀ (id : ℕ) (node : CybertwinNode), before.nodes[id]? = some node →
    node.kind ≠ .coreServer → after.nodes[id]? = some node

theorem configCNRS_spec {reader after : Reader} {centralNode : Name} (mapped : reader.Mapped)
    (distinct : (reader.coreNodesList.map NodeInfo.name).Nodup)
    (ran : reader.configCNRS centralNode = some after) :
    ∃ (central : ℕ) (node : CybertwinNode) (address : UInt32),
      reader.nodes[central]? = some node ∧
      node.kind = NodeKind.coreServer ∧
      node.name = centralNode ∧ address ∈ node.globalAddrList ∧
      Configured reader after central address := by
  obtain ⟨central, found, ran⟩ := Option.bind_eq_some_iff.mp ran
  obtain ⟨node, cast, ran⟩ := Option.bind_eq_some_iff.mp ran
  obtain ⟨address, first, ran⟩ := Option.bind_eq_some_iff.mp ran
  obtain ⟨held, core⟩ := Option.filter_eq_some_iff.mp cast
  have isCore : node.kind = .coreServer := by simpa using core
  obtain ⟨kind, label⟩ := mapped.pointers centralNode central found
  have named : node.name = centralNode := by
    have both := (label_of held).symm.trans label
    exact (Prod.mk.inj (Option.some.inj both)).2
  have same : Same reader (reader.modify central CybertwinNode.setCNRSRoot) :=
    same_modify reader central keeps_setCNRSRoot
  have start : (reader.modify central CybertwinNode.setCNRSRoot) =
      { reader.modify central CybertwinNode.setCNRSRoot with
        nodes := (reader.modify central CybertwinNode.setCNRSRoot).nodes.map
          (raise centralNode address []) } := by
    have plain : raise centralNode address [] = id := by
      funext other
      simp [raise]
    rw [plain, List.map_id]
  change reader.coreNodesList.foldlM (configUpper centralNode address)
    (reader.modify central CybertwinNode.setCNRSRoot) = some after at ran
  rw [start] at ran
  have final := configUppers_spec (mapped.same same) distinct ran
  have raised : ∀ id : ℕ, after.nodes[id]? = (reader.modify central
      CybertwinNode.setCNRSRoot).nodes[id]?.map (raise centralNode address
        (reader.coreNodesList.map NodeInfo.name)) := by
    intro id
    rw [final, ← List.getElem?_map]
    rfl
  refine ⟨central, node, address, held, isCore, named, List.mem_of_head? first,
    ⟨by rw [final]; rfl, ?_, ?_, ?_, ?_⟩⟩
  · rw [final, ← same.length, List.length_map]
  · intro other there
    rw [held, Option.some.injEq] at there
    subst there
    rw [raised, modify_self held, Option.map_some, raise, if_neg]
    exact fun all => all.2.1 named
  · intro id other there isOther different
    have listed := mapped.cores id other.name (isOther ▸ label_of there)
    have apart : other.name ≠ centralNode := by
      intro sameName
      have top := mapped.cores central node.name (isCore ▸ label_of held)
      rw [named, ← sameName, ← listed] at top
      obtain ⟨inside, -⟩ := List.getElem?_eq_some_iff.mp listed
      exact different ((List.getElem?_inj inside distinct).mp top.symm)
    rw [raised, modify_other different, there, Option.map_some, raise, if_pos]
    exact ⟨isOther, apart, List.mem_of_getElem? listed⟩
  · intro id other there isOther
    have different : id ≠ central := by
      rintro rfl
      rw [held, Option.some.injEq] at there
      exact isOther (there ▸ isCore)
    rw [raised, modify_other different, there, Option.map_some, raise, if_neg]
    exact fun all => isOther all.1

/-- A node other than the central one has a superior that was made before it or is the central one,
and was never marked. -/
theorem Configured.above {before after : Reader} {central : ℕ} {address : UInt32}
    {node : CybertwinNode} (configured : Configured before after central address)
    (sound : before.Sound before.nodes.length) (held : before.nodes[central]? = some node)
    (core : node.kind = .coreServer) (given : address ∈ node.globalAddrList) {id : ℕ}
    (inside : id < after.nodes.length) (different : id ≠ central) :
    ∃ final address' lower, after.nodes[id]? = some final ∧ final.isCRNSRoot = none ∧
      final.upperNodeAddress = some address' ∧ after.owner address' = some lower ∧
      (lower = central ∨ lower < id) := by
  have owner : after.owner = before.owner := by
    funext searched
    rw [Reader.owner, configured.interfaces, Reader.owner]
  have owned : after.owner address = some central := by
    rw [owner]
    exact (sound.each central node held).global core address given
  rw [configured.length] at inside
  have there := List.getElem?_eq_getElem inside
  have placed := sound.each id _ there
  by_cases isCore : before.nodes[id].kind = .coreServer
  · exact ⟨_, address, central, configured.core id _ there isCore different, placed.plain, rfl,
      owned, .inl rfl⟩
  · obtain ⟨address', lower, upper, known, below⟩ := placed.hung isCore inside
    exact ⟨_, address', lower, configured.rest id _ there isCore, placed.plain, upper,
      owner ▸ known, .inr below⟩

theorem Configured.rootedTree {before after : Reader} {central : ℕ} {address : UInt32}
    {node : CybertwinNode} {memory : ℕ → Bool}
    (configured : Configured before after central address)
    (sound : before.Sound before.nodes.length) (held : before.nodes[central]? = some node)
    (core : node.kind = .coreServer) (given : address ∈ node.globalAddrList)
    (unset : ∀ id < before.nodes.length, id ≠ central → memory id = false) :
    after.RootedTree memory central := by
  have above : ∀ {id : ℕ}, id < after.nodes.length → id ≠ central → _ := fun inside different =>
    configured.above sound held core given inside different
  have root := configured.root node held
  have bare := (sound.each central node held).core core
  refine ⟨configured.interfaces ▸ sound.unique, ?_, ?_, ?_, ?_⟩
  · simp [superior, root, CybertwinNode.setCNRSRoot, bare.1]
  · intro id
    induction id using Nat.strongRecOn with
    | ind id ih =>
        intro inside
        by_cases same : id = central
        · exact ⟨0, by rw [same]; rfl⟩
        · obtain ⟨final, address', lower, there, -, upper, known, below⟩ := above inside same
          have stepped : after.superior id = some lower := by
            simp [superior, there, upper, known]
          rcases below with rfl | below
          · exact ⟨1, by simp [Chain.climb, stepped]⟩
          · obtain ⟨steps, climbed⟩ := ih lower below (by omega)
            exact ⟨steps + 1, by rw [Chain.climb, stepped]; exact climbed⟩
  · intro id final there
    by_cases same : id = central
    · subst same
      rw [root, Option.some.injEq] at there
      subst there
      simp [installCNRSApp, CybertwinNode.setCNRSRoot, bare.1, bare.2]
    · obtain ⟨inside, -⟩ := List.getElem?_eq_some_iff.mp there
      obtain ⟨other, address', lower, also, -, upper, -, -⟩ := above inside same
      rw [also, Option.some.injEq] at there
      subst there
      simp [installCNRSApp_of_upper upper, same]
  · intro id final there
    by_cases same : id = central
    · subst same
      rw [root, Option.some.injEq] at there
      subst there
      simp [CybertwinNode.isCNRSRoot, CybertwinNode.setCNRSRoot]
    · obtain ⟨inside, -⟩ := List.getElem?_eq_some_iff.mp there
      obtain ⟨other, address', lower, also, plain, -, -, -⟩ := above inside same
      rw [also, Option.some.injEq] at there
      subst there
      have silent := unset id (configured.length ▸ inside) same
      simp [CybertwinNode.isCNRSRoot, plain, silent, same]

end Reader

end FISim.Topology
