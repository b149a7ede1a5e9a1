import FISim.Topology.Hierarchy
import FISim.Topology.UnknownTargets

/-!
When `Read` leads to a rooted tree.  The three passes give every node its superior;
`ConfigCNRS` returns if the central node has a link and no host bears the name of a
core server.
-/

namespace FISim.Topology

structure TopologyFile.WellFormed (file : TopologyFile) : Prop where
  names : file.declared.Nodup
  linked : LinkedBack (file.coreLayer.map CloudNode.name) file.edgeLayer

/-- What makes the superiors a rooted tree, besides what the passes need. `memory` is what stands in
the nodes where `m_isCRNSRoot` was never written. -/
structure TopologyFile.Rooted (file : TopologyFile) (memory : ℕ → Bool) : Prop
    extends Passable file where
  central : ∃ made ∈ madeLinks [] (coreLinks file.coreLayer),
    file.centralNode ∈ s(made.1, made.2.target)
  apart : ∀ cluster ∈ file.accessLayer, ∀ index < cluster.numNodes,
    Reader.hostName cluster.name index ∉ file.coreLayer.map CloudNode.name
  unset : ∀ id < file.coreLayer.length + file.edgeLayer.length +
      (file.accessLayer.map EndCluster.numNodes).sum,
    (file.coreLayer.map CloudNode.name)[id]? ≠ some file.centralNode → memory id = false

namespace Reader

/-- `Read` returns, the superiors lead every node to the central one, and only this one says that it
is the root. -/
def TreeRead (memory : ℕ → Bool) (file : TopologyFile) : Prop :=
  ∃ reader, read file = some reader ∧ ∃ (central : ℕ) (node : CybertwinNode),
    reader.nodes[central]? = some node ∧ node.kind = .coreServer ∧
      node.name = file.centralNode ∧ reader.RootedTree memory central

theorem exists_pairUp {Item : Type} {items : List Item} (even : Even items.length) {item : Item}
    (member : item ∈ items) : ∃ pair ∈ pairUp items, item = pair.1 ∨ item = pair.2 := by
  match items with
  | [] => exact absurd member List.not_mem_nil
  | [_] => exact absurd even Nat.not_even_one
  | first :: second :: rest =>
      rcases List.mem_cons.mp member with rfl | member
      · exact ⟨(item, second), List.mem_cons_self, .inl rfl⟩
      rcases List.mem_cons.mp member with rfl | member
      · exact ⟨(first, item), List.mem_cons_self, .inr rfl⟩
      have fewer : Even rest.length := by
        rwa [List.length_cons, List.length_cons, Nat.even_add_one, Nat.even_add_one, not_not] at even
      obtain ⟨pair, inside, side⟩ := exists_pairUp fewer member
      exact ⟨pair, List.mem_cons_of_mem _ inside, side⟩

theorem mem_linkEnds {reader : Reader} {name : Name} (even : Even reader.interfaces.length) :
    (∃ ends ∈ reader.linkEnds, name ∈ ends) ↔
      ∃ interface ∈ reader.interfaces, name = reader.nameOf interface.2 := by
  constructor
  · rintro ⟨ends, member, side⟩
    obtain ⟨link, inside, rfl⟩ := List.mem_map.mp member
    obtain ⟨one, two⟩ := mem_pairUp inside
    rcases Sym2.mem_iff.mp side with same | same
    · exact ⟨link.1, one, same⟩
    · exact ⟨link.2, two, same⟩
  · rintro ⟨interface, member, rfl⟩
    obtain ⟨link, inside, side⟩ := exists_pairUp even member
    refine ⟨_, List.mem_map_of_mem inside, Sym2.mem_iff.mpr ?_⟩
    exact side.imp (congrArg fun end' : UInt32 × ℕ => reader.nameOf end'.2)
      (congrArg fun end' : UInt32 × ℕ => reader.nameOf end'.2)

theorem Known.core {nodes : List CloudNode} {reader : Reader} {id : ℕ} {node : CybertwinNode}
    (known : reader.Known (coreLabels nodes)) (held : reader.nodes[id]? = some node) :
    node.kind = .coreServer := by
  have label := label_of held
  rw [known.labels] at label
  obtain ⟨_, -, same⟩ := List.mem_map.mp (List.mem_of_getElem? label)
  exact (Prod.mk.inj same).1.symm

theorem parseCoreCloud_linked {nodes : List CloudNode} {reader : Reader}
    (ran : parseCoreCloud {} nodes = some reader) (name : Name) :
    (∃ (id : ℕ) (node : CybertwinNode), reader.nodes[id]? = some node ∧ node.name = name ∧
      node.globalAddrList ≠ []) ↔
      ∃ made ∈ madeLinks [] (coreLinks nodes), name ∈ s(made.1, made.2.target) := by
  obtain ⟨recorded, made⟩ := parseCoreCloud_recorded ran
  obtain ⟨-, sound⟩ := parseCoreCloud_same ran
  have ends : (∃ ends ∈ reader.linkEnds, name ∈ ends) ↔
      ∃ made ∈ madeLinks [] (coreLinks nodes), name ∈ s(made.1, made.2.target) := by
    rw [made.ends]
    simp only [List.mem_map, exists_exists_and_eq_and]
  rw [← ends, mem_linkEnds recorded.even]
  constructor
  · rintro ⟨id, node, held, rfl, some⟩
    obtain ⟨address, given⟩ := List.exists_mem_of_ne_nil _ some
    have core := (parseCoreCloud_known ran).core held
    have owned := (sound.each id node held).global core address given
    obtain ⟨before, after, split, -⟩ := List.lookup_eq_some_iff.mp owned
    refine ⟨(address, id), by rw [split]; exact List.mem_append_right _ List.mem_cons_self, ?_⟩
    exact (nameOf_of_label (label_of held)).symm
  · rintro ⟨interface, member, rfl⟩
    obtain ⟨node, held, given⟩ := made.given interface member
    exact ⟨_, node, held, (nameOf_of_label (label_of held)).symm, List.ne_nil_of_mem given⟩

theorem createCoreServers_pointers (nodes : List CloudNode) {reader : Reader} {name : Name}
    (there : (reader.nodeName2Ptr name).isSome ∨ name ∈ nodes.map CloudNode.name) :
    ((nodes.foldl createCoreServer reader).nodeName2Ptr name).isSome := by
  induction nodes generalizing reader with
  | nil => exact there.resolve_right List.not_mem_nil
  | cons node rest ih =>
      refine ih ?_
      rw [List.map_cons, List.mem_cons] at there
      rcases there with old | rfl | later
      · exact .inl ((kept_createNode reader .coreServer node.name).pointers name old)
      · refine .inl ?_
        change (Function.update reader.nodeName2Ptr node.name _ node.name).isSome
        rw [Function.update_self]
        rfl
      · exact .inr later

/-- What stands before `ConfigCNRS`. -/
structure Standing (file : TopologyFile) (reader : Reader) : Prop where
  mapped : reader.Mapped
  sound : reader.Sound reader.nodes.length
  listed : reader.coreNodesList.map NodeInfo.name = file.coreLayer.map CloudNode.name
  labels : reader.labels = coreLabels file.coreLayer ++ edgeLabels file.edgeLayer ++
    file.accessLayer.flatMap hostLabels
  pointers : ∀ name ∈ file.coreLayer.map CloudNode.name, (reader.nodeName2Ptr name).isSome
  hosts : ∀ cluster ∈ file.accessLayer, ∀ index < cluster.numNodes, ∃ id name,
    reader.nodeName2Ptr (hostName cluster.name index) = some id ∧
      reader.labels[id]? = some (.endHost, name)
  linked : ∀ name, (∃ (id : ℕ) (node : CybertwinNode), reader.nodes[id]? = some node ∧
    node.kind = .coreServer ∧ node.name = name ∧ node.globalAddrList ≠ []) ↔
      ∃ made ∈ madeLinks [] (coreLinks file.coreLayer), name ∈ s(made.1, made.2.target)

theorem standing_of_passable {file : TopologyFile} (wellFormed : file.WellFormed)
    (passable : file.Passable) :
    ∃ cores edges hosts, Passed file cores edges hosts ∧ Standing file hosts := by
  obtain ⟨cores, edges, hosts, passed, usable, grown⟩ :=
    passed_of_passable wellFormed.names passable
  obtain ⟨known, edgesKnown, edgeMade⟩ := passed.known
  obtain ⟨same, -⟩ := parseCoreCloud_same passed.core
  obtain ⟨built, listed⟩ := parseCoreCloud_spec passed.core
  have servers := (List.nodup_append.mp wellFormed.names).1
  obtain ⟨mapped, sound, kept⟩ :=
    parseEdgeCloud_spec built wellFormed.linked servers passed.edge
  obtain ⟨mapped, sound, stays⟩ := parseAccessNetwork_spec mapped sound passed.access
  have later := edgeMade.kept.trans grown.kept
  have labels : hosts.labels = coreLabels file.coreLayer ++ edgeLabels file.edgeLayer ++
      file.accessLayer.flatMap hostLabels := by
    rw [grown.labels, edgesKnown.labels]
  have list : hosts.coreNodesList.map NodeInfo.name = file.coreLayer.map CloudNode.name := by
    rw [stays, kept, listed]
  refine ⟨cores, edges, hosts, passed, mapped, sound, list, labels, ?_, ?_, ?_⟩
  · intro name member
    refine later.pointers name ?_
    rw [same.nodeName2Ptr]
    exact createCoreServers_pointers file.coreLayer (.inr member)
  · intro cluster member index small
    obtain ⟨first, _, _, _, _, -, -, -, each⟩ := usable.mem cluster member
    obtain ⟨⟨host, held, kind, -⟩, found⟩ := each index small
    exact ⟨_, host.name, found, kind ▸ label_of held⟩
  · intro name
    rw [← parseCoreCloud_linked passed.core]
    constructor
    · rintro ⟨id, node, held, core, named, some⟩
      have there := mapped.cores id node.name (core ▸ label_of held)
      rw [list, ← snd_coreLabels, ← known.labels] at there
      obtain ⟨inside, -⟩ := List.getElem?_eq_some_iff.mp there
      rw [List.length_map, labels_length] at inside
      have first := List.getElem?_eq_getElem inside
      have stayed := later.cores id _ first (known.core first)
      rw [held, Option.some.injEq] at stayed
      exact ⟨id, node, stayed ▸ first, named, some⟩
    · rintro ⟨id, node, held, named, some⟩
      have core := known.core held
      exact ⟨id, node, later.cores id node held core, core, named, some⟩

theorem mem_of_cast {reader : Reader} {id : ℕ} {kind : NodeKind} {node : CybertwinNode}
    (cast : reader.cast? kind id = some node) : reader.nodes[id]? = some node ∧ node.kind = kind := by
  obtain ⟨held, same⟩ := Option.filter_eq_some_iff.mp cast
  exact ⟨held, of_decide_eq_true same⟩

theorem cast_of_label {reader : Reader} {id : ℕ} {kind : NodeKind} {name : Name}
    (label : reader.labels[id]? = some (kind, name)) :
    ∃ node, reader.cast? kind id = some node ∧ reader.nodes[id]? = some node ∧ node.name = name := by
  obtain ⟨node, held, same, named⟩ := node_of label
  exact ⟨node, Option.filter_eq_some_iff.mpr ⟨held, decide_eq_true same⟩, held, named⟩

theorem configUpper_same {reader next : Reader} {centralNode : Name} {address : UInt32}
    {nodeInfo : NodeInfo} (ran : configUpper centralNode address reader nodeInfo = some next) :
    Same reader next ∧ (nodeInfo.name ≠ centralNode → ∃ id name,
      reader.nodeName2Ptr nodeInfo.name = some id ∧
        reader.labels[id]? = some (.coreServer, name)) := by
  unfold configUpper at ran
  split at ran
  · rename_i central
    rw [← Option.some.inj ran]
    exact ⟨.refl reader, fun other => absurd central other⟩
  · obtain ⟨id, found, ran⟩ := Option.bind_eq_some_iff.mp ran
    obtain ⟨node, cast, ran⟩ := Option.bind_eq_some_iff.mp ran
    obtain ⟨held, core⟩ := mem_of_cast cast
    rw [← Option.some.inj ran]
    exact ⟨same_modify _ _ (keeps_setUpperNodeAddress address),
      fun _ => ⟨id, node.name, found, core ▸ label_of held⟩⟩

theorem configUppers_isSome_iff {list : List NodeInfo} {reader : Reader} {centralNode : Name}
    {address : UInt32} :
    (list.foldlM (configUpper centralNode address) reader).isSome ↔
      ∀ nodeInfo ∈ list, nodeInfo.name ≠ centralNode → ∃ id name,
        reader.nodeName2Ptr nodeInfo.name = some id ∧
          reader.labels[id]? = some (.coreServer, name) := by
  induction list generalizing reader with
  | nil => exact iff_of_true rfl fun _ member => absurd member List.not_mem_nil
  | cons nodeInfo rest ih =>
      rw [List.foldlM_cons, List.forall_mem_cons]
      constructor
      · intro some
        obtain ⟨after, ran⟩ := Option.isSome_iff_exists.mp some
        obtain ⟨middle, first, later⟩ := Option.bind_eq_some_iff.mp ran
        obtain ⟨same, found⟩ := configUpper_same first
        refine ⟨found, ?_⟩
        rw [← same.labels, ← same.nodeName2Ptr]
        exact ih.mp (Option.isSome_iff_exists.mpr ⟨after, later⟩)
      · rintro ⟨found, others⟩
        obtain ⟨middle, first⟩ : ∃ middle,
            configUpper centralNode address reader nodeInfo = some middle := by
          unfold configUpper
          split
          · exact ⟨reader, rfl⟩
          · rename_i other
            obtain ⟨id, name, pointer, label⟩ := found other
            obtain ⟨node, cast, -⟩ := cast_of_label label
            exact ⟨_, by simp only [pointer, cast, Option.bind_eq_bind, Option.bind_some]; rfl⟩
        obtain ⟨same, -⟩ := configUpper_same first
        rw [← same.labels, ← same.nodeName2Ptr] at others
        simp only [first, Option.bind_eq_bind, Option.bind_some]
        exact ih.mpr others

theorem configCNRS_isSome_iff {reader : Reader} {centralNode : Name} :
    (reader.configCNRS centralNode).isSome ↔
      (∃ (id : ℕ) (node : CybertwinNode), reader.nodeName2Ptr centralNode = some id ∧
        reader.nodes[id]? = some node ∧ node.kind = .coreServer ∧ node.globalAddrList ≠ []) ∧
      ∀ nodeInfo ∈ reader.coreNodesList, nodeInfo.name ≠ centralNode → ∃ id name,
        reader.nodeName2Ptr nodeInfo.name = some id ∧
          reader.labels[id]? = some (.coreServer, name) := by
  constructor
  · intro some
    obtain ⟨after, ran⟩ := Option.isSome_iff_exists.mp some
    obtain ⟨id, pointer, ran⟩ := Option.bind_eq_some_iff.mp ran
    obtain ⟨node, cast, ran⟩ := Option.bind_eq_some_iff.mp ran
    obtain ⟨address, first, ran⟩ := Option.bind_eq_some_iff.mp ran
    obtain ⟨held, core⟩ := mem_of_cast cast
    refine ⟨⟨id, node, pointer, held, core, List.ne_nil_of_mem (List.mem_of_head? first)⟩, ?_⟩
    have marked := same_modify reader id keeps_setCNRSRoot
    rw [← marked.labels]
    exact configUppers_isSome_iff.mp (Option.isSome_iff_exists.mpr ⟨after, ran⟩)
  · rintro ⟨⟨id, node, pointer, held, core, given⟩, others⟩
    obtain ⟨address, rest, list⟩ := List.exists_cons_of_ne_nil given
    have cast : reader.cast? .coreServer id = some node :=
      Option.filter_eq_some_iff.mpr ⟨held, decide_eq_true core⟩
    have marked := same_modify reader id keeps_setCNRSRoot
    rw [← marked.labels] at others
    simp only [configCNRS, pointer, cast, list, List.head?_cons, Option.bind_eq_bind,
      Option.bind_some]
    exact configUppers_isSome_iff.mpr others

theorem Standing.found_iff {file : TopologyFile} {reader : Reader}
    (standing : Standing file reader) (names : file.declared.Nodup) {name : Name}
    (member : name ∈ file.coreLayer.map CloudNode.name) :
    (∃ id other, reader.nodeName2Ptr name = some id ∧
      reader.labels[id]? = some (.coreServer, other)) ↔
      ∀ cluster ∈ file.accessLayer, ∀ index < cluster.numNodes,
        hostName cluster.name index ≠ name := by
  constructor
  · rintro ⟨id, other, pointer, label⟩ cluster inside index small rfl
    obtain ⟨host, _, found, isHost⟩ := standing.hosts cluster inside index small
    rw [pointer, Option.some.injEq] at found
    rw [← found, label] at isHost
    cases isHost
  · intro apart
    obtain ⟨id, pointer⟩ := Option.isSome_iff_exists.mp (standing.pointers name member)
    obtain ⟨kind, label⟩ := standing.mapped.pointers name id pointer
    refine ⟨id, name, pointer, ?_⟩
    have entry := List.mem_of_getElem? label
    rw [standing.labels] at entry
    rcases List.mem_append.mp entry with server | host
    · rcases List.mem_append.mp server with core | edge
      · obtain ⟨_, -, same⟩ := List.mem_map.mp core
        rw [label, ← (Prod.mk.inj same).1]
      · have twice := List.mem_map_of_mem (f := Prod.snd) edge
        rw [snd_edgeLabels] at twice
        have distinct := (List.nodup_append.mp (List.nodup_append.mp names).1).2.2
        exact absurd rfl (distinct name member name twice)
    · obtain ⟨cluster, inside, index⟩ := List.mem_flatMap.mp host
      obtain ⟨index, small, same⟩ := List.mem_map.mp index
      exact absurd (Prod.mk.inj same).2 (apart cluster inside index (List.mem_range.mp small))

theorem madeLinks_subset (seen : List Name) (links : List (Name × Link)) :
    madeLinks seen links ⊆ links := by
  induction links generalizing seen with
  | nil => exact List.Subset.refl []
  | cons link rest ih =>
      rw [madeLinks]
      split
      · exact List.subset_cons_of_subset link (ih _)
      · exact List.cons_subset_cons link (ih _)

theorem mem_names_of_made {file : TopologyFile} (passable : file.Passable) {name : Name}
    (linked : ∃ made ∈ madeLinks [] (coreLinks file.coreLayer), name ∈ s(made.1, made.2.target)) :
    name ∈ file.coreLayer.map CloudNode.name := by
  obtain ⟨made, member, side⟩ := linked
  obtain ⟨node, declared, listed⟩ := List.mem_flatMap.mp (madeLinks_subset _ _ member)
  obtain ⟨link, inside, rfl⟩ := List.mem_map.mp listed
  rcases Sym2.mem_iff.mp side with rfl | rfl
  · exact List.mem_map_of_mem declared
  · exact passable.core node declared link inside

theorem Standing.configCNRS_isSome_iff {file : TopologyFile} {reader : Reader}
    (standing : Standing file reader) (names : file.declared.Nodup) (passable : file.Passable) :
    (reader.configCNRS file.centralNode).isSome ↔
      (∃ made ∈ madeLinks [] (coreLinks file.coreLayer),
        file.centralNode ∈ s(made.1, made.2.target)) ∧
      ∀ cluster ∈ file.accessLayer, ∀ index < cluster.numNodes,
        hostName cluster.name index ∉ file.coreLayer.map CloudNode.name := by
  have listed : ∀ P : Name → Prop, (∀ nodeInfo ∈ reader.coreNodesList, P nodeInfo.name) ↔
      ∀ name ∈ file.coreLayer.map CloudNode.name, P name := by
    intro P
    rw [← standing.listed, List.forall_mem_map]
  rw [Reader.configCNRS_isSome_iff, listed fun name => name ≠ file.centralNode → ∃ id other,
    reader.nodeName2Ptr name = some id ∧ reader.labels[id]? = some (.coreServer, other)]
  constructor
  · rintro ⟨⟨id, node, pointer, held, core, given⟩, others⟩
    obtain ⟨kind, label⟩ := standing.mapped.pointers _ id pointer
    have named := (Prod.mk.inj (Option.some.inj ((label_of held).symm.trans label))).2
    have central := (standing.linked file.centralNode).mp ⟨id, node, held, core, named, given⟩
    refine ⟨central, fun cluster inside index small member => ?_⟩
    refine (standing.found_iff names member).mp ?_ cluster inside index small rfl
    by_cases same : hostName cluster.name index = file.centralNode
    · exact ⟨id, node.name, same ▸ pointer, core ▸ label_of held⟩
    · exact others _ member same
  · rintro ⟨central, apart⟩
    have found : ∀ name ∈ file.coreLayer.map CloudNode.name, ∃ id other,
        reader.nodeName2Ptr name = some id ∧ reader.labels[id]? = some (.coreServer, other) := by
      intro name member
      refine (standing.found_iff names member).mpr fun cluster inside index small same => ?_
      exact apart cluster inside index small (same ▸ member)
    refine ⟨?_, fun name member _ => found name member⟩
    obtain ⟨id, node, held, core, named, given⟩ := (standing.linked file.centralNode).mpr central
    obtain ⟨id', other, pointer, label⟩ := found _ (mem_names_of_made passable central)
    -- the core servers have different names, so that the pointer leads to this one
    obtain ⟨kind, named'⟩ := standing.mapped.pointers _ id' pointer
    rw [label, Option.some.injEq, Prod.mk.injEq] at named'
    have one := standing.mapped.cores id _ (core ▸ named ▸ label_of held)
    have two := standing.mapped.cores id' _ (named'.2 ▸ label)
    have distinct : (reader.coreNodesList.map NodeInfo.name).Nodup := by
      rw [standing.listed]
      exact (List.nodup_append.mp (List.nodup_append.mp names).1).1
    rw [← one] at two
    obtain ⟨inside, -⟩ := List.getElem?_eq_some_iff.mp one
    have same := (List.getElem?_inj inside distinct).mp two.symm
    exact ⟨id, node, same ▸ pointer, held, core, given⟩

theorem Standing.length {file : TopologyFile} {reader : Reader} (standing : Standing file reader) :
    reader.nodes.length = file.coreLayer.length + file.edgeLayer.length +
      (file.accessLayer.map EndCluster.numNodes).sum := by
  rw [← labels_length, standing.labels, List.length_append, List.length_append, coreLabels,
    edgeLabels, List.length_map, List.length_map, List.length_flatMap]
  simp only [hostLabels, List.length_map, List.length_range]

/-- `ConfigCNRS` leaves a rooted tree if and only if nothing but the central node's member reads as
the root. -/
theorem Standing.rootedTree_iff {file : TopologyFile} {reader after : Reader} {memory : ℕ → Bool}
    (standing : Standing file reader) (names : file.declared.Nodup)
    (ran : reader.configCNRS file.centralNode = some after) :
    (∃ (central : ℕ) (node : CybertwinNode), after.nodes[central]? = some node ∧
      node.kind = .coreServer ∧ node.name = file.centralNode ∧ after.RootedTree memory central) ↔
      ∀ id < reader.nodes.length,
        (file.coreLayer.map CloudNode.name)[id]? ≠ some file.centralNode → memory id = false := by
  have distinct : (reader.coreNodesList.map NodeInfo.name).Nodup := by
    rw [standing.listed]
    exact (List.nodup_append.mp (List.nodup_append.mp names).1).1
  obtain ⟨central, node, address, held, core, named, given, configured⟩ :=
    configCNRS_spec standing.mapped distinct ran
  have place : (file.coreLayer.map CloudNode.name)[central]? = some file.centralNode := by
    rw [← standing.listed, ← named]
    exact standing.mapped.cores central _ (core ▸ label_of held)
  have only : ∀ id : ℕ, (file.coreLayer.map CloudNode.name)[id]? = some file.centralNode →
      id = central := by
    intro id there
    rw [← place, ← standing.listed] at there
    rw [← standing.listed] at place
    obtain ⟨inside, -⟩ := List.getElem?_eq_some_iff.mp place
    exact ((List.getElem?_inj inside distinct).mp there.symm).symm
  constructor
  · rintro ⟨root, _, rootHeld, rootCore, rootNamed, tree⟩ id inside other
    have different : id ≠ central := fun same => other (same ▸ place)
    obtain ⟨final, _, _, there, plain, upper, -, -⟩ := configured.above standing.sound held core
      given (configured.length.symm ▸ inside) different
    by_contra set
    have marked : final.isCNRSRoot (memory id) = true := by
      simpa [CybertwinNode.isCNRSRoot, plain] using set
    have top : root = central := by
      by_contra away
      obtain ⟨inner, -⟩ := List.getElem?_eq_some_iff.mp rootHeld
      obtain ⟨last, address', _, also, -, hung, -, -⟩ :=
        configured.above standing.sound held core given inner away
      have rooted := (tree.roots root last also).mpr rfl
      rw [installCNRSApp_of_upper hung] at rooted
      cases rooted
    exact different (((tree.marked id final there).mp marked).trans top)
  · intro unset
    refine ⟨central, _, configured.root node held, core, named, ?_⟩
    exact configured.rootedTree standing.sound held core given fun id inside different =>
      unset id inside fun there => different (only id there)

def sampleFile : TopologyFile where
  coreLayer := [⟨[1], [⟨[2], ⟨0x0A000000, 24⟩⟩]⟩, ⟨[2], []⟩]
  edgeLayer := [⟨[3], [⟨[1], ⟨0x0A000100, 24⟩⟩, ⟨[2], ⟨0x0A000200, 24⟩⟩]⟩,
    ⟨[4], [⟨[3], ⟨0x0A000300, 24⟩⟩]⟩]
  accessLayer := [⟨[5], 2, ⟨0x0A010000, 16⟩, .csma, [⟨[4], ⟨0x0A000400, 24⟩⟩]⟩,
    ⟨[6], 1, ⟨0x0A020000, 16⟩, .wifi, [⟨[3], ⟨0x0A000500, 24⟩⟩]⟩]
  centralNode := [2]

theorem sampleFile_passable : sampleFile.Passable := by
  refine ⟨⟨by decide, by decide⟩, by decide, ?_⟩
  intro cluster member
  rcases List.mem_pair.mp member with rfl | rfl
  · exact ⟨by decide, .inl rfl, _, rfl, by decide⟩
  · exact ⟨by decide, .inr rfl, _, rfl, by decide⟩

-- A core server that bears the name of a cluster's first host.
def namedHost : TopologyFile where
  coreLayer := [⟨[1], [⟨[2, 95, 48], ⟨0x0A000000, 24⟩⟩]⟩, ⟨[2, 95, 48], []⟩]
  edgeLayer := [⟨[3], [⟨[1], ⟨0x0A000100, 24⟩⟩]⟩]
  accessLayer := [⟨[2], 1, ⟨0x0A010000, 16⟩, .csma, [⟨[3], ⟨0x0A000400, 24⟩⟩]⟩]
  centralNode := [1]

theorem namedHost_passable : namedHost.Passable := by
  refine ⟨⟨by decide, by decide⟩, by decide, ?_⟩
  intro cluster member
  rw [List.mem_singleton.mp member]
  exact ⟨Nat.le_refl 1, .inl rfl, _, rfl, List.mem_cons_self⟩

end Reader

end FISim.Topology
