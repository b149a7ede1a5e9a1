import FISim.Topology.AccessClusters
import FISim.Topology.EdgeLinks

/-!
Links and gateways that name no node.  The edge layer tests a target before it uses it;
the core layer and the access layer use the entry of `m_nodeInfoMap` that the lookup
itself inserts.
-/

namespace FISim.Topology

namespace TopologyFile

def declared (file : TopologyFile) : List Name :=
  file.coreLayer.map CloudNode.name ++ file.edgeLayer.map CloudNode.name ++
    file.accessLayer.map EndCluster.name

def demands (file : TopologyFile) : List (Subnet × ℕ) :=
  coreDemands file.coreLayer ++
    (edgeDemands (file.coreLayer.map CloudNode.name) file.edgeLayer ++
      Reader.clusterDemands file.accessLayer)

/-- What a cluster needs of its file. -/
structure Attached (file : TopologyFile) (cluster : EndCluster) : Prop where
  nonempty : 1 ≤ cluster.numNodes
  lan : cluster.networkType = .csma ∨ cluster.networkType = .wifi
  gateway : ∃ link, cluster.gateways.head? = some link ∧
    link.target ∈ file.edgeLayer.map CloudNode.name

/-- What the three passes need: `demands` are the addresses of the links that they make. -/
structure Passable (file : TopologyFile) : Prop where
  addressable : Reader.Addressable [] file.demands
  core : ∀ node ∈ file.coreLayer, ∀ link ∈ node.links,
    link.target ∈ file.coreLayer.map CloudNode.name
  clusters : ∀ cluster ∈ file.accessLayer, file.Attached cluster

structure Resolved (file : TopologyFile) : Prop extends Passable file where
  unambiguous : Unambiguous file.coreLayer
  edge : KnownInTime (file.coreLayer.map CloudNode.name) file.declared file.edgeLayer

end TopologyFile

namespace Reader

/-- Every pass returns, every link to a declared node is there, and `m_nodeInfoMap` holds the
declared nodes and nothing else. -/
structure Parsed (file : TopologyFile) (cores edges hosts : Reader) : Prop where
  core : parseCoreCloud {} file.coreLayer = some cores
  edge : cores.parseEdgeCloud file.edgeLayer = some edges
  access : edges.parseAccessNetwork file.accessLayer = some hosts
  coreLinks : ∀ node ∈ file.coreLayer, ∀ link ∈ node.links, link.target ∈ file.declared →
    s(node.name, link.target) ∈ cores.linkEnds
  edgeLinks : ∀ node ∈ file.edgeLayer, ∀ link ∈ node.links, link.target ∈ file.declared →
    (node.name, link.target) ∈ edges.directedEnds
  gatewayLinks : ∀ cluster ∈ file.accessLayer, ∀ link, cluster.gateways.head? = some link →
    link.target ∈ file.declared → ∃ router gateway first second,
      [(first, router), (second, gateway)] <:+: hosts.interfaces ∧
        hosts.nodeName2Ptr (hostName cluster.name 0) = some router ∧
        hosts.nameOf gateway = link.target
  infos : ∀ name, (hosts.nodeInfoMap name).isSome ↔ name ∈ file.declared

def SkipsUnknown (file : TopologyFile) : Prop := ∃ cores edges hosts, Parsed file cores edges hosts

theorem parseAccessNetwork_infos {clusters : List EndCluster} {reader after : Reader}
    (unique : (reader.interfaces.map Prod.fst).Nodup)
    (ran : parseAccessNetwork reader clusters = some after) (name : Name) :
    (after.nodeInfoMap name).isSome ↔
      (reader.nodeInfoMap name).isSome ∨ name ∈ clusters.map EndCluster.name := by
  induction clusters generalizing reader with
  | nil =>
      rw [← Option.some.inj ran]
      simp
  | cons cluster later ih =>
      rw [parseAccessNetwork, List.foldlM_cons] at ran
      obtain ⟨middle, first, rest⟩ := Option.bind_eq_some_iff.mp ran
      obtain ⟨_, _, _, -, made⟩ := parseEndCluster_made unique first
      rw [ih made.unique rest, made.nodeInfoMap, List.map_cons, List.mem_cons]
      by_cases same : name = cluster.name
      · subst same
        simp
      · rw [Function.update_of_ne same]
        simp [same]

theorem mem_listed {nodes : List CloudNode} {pair : Sym2 Name} :
    pair ∈ listed nodes ↔ ∃ node ∈ nodes, ∃ link ∈ node.links, s(node.name, link.target) = pair := by
  simp only [listed, List.mem_flatMap, List.mem_map]

theorem ClustersUsable.mem {reader : Reader} {clusters : List EndCluster} {start : ℕ}
    (usable : reader.ClustersUsable start clusters) :
    ∀ cluster ∈ clusters, ∃ first, reader.Usable first cluster := by
  induction clusters generalizing start with
  | nil => exact fun _ member => absurd member List.not_mem_nil
  | cons cluster rest ih =>
      intro other member
      rcases List.mem_cons.mp member with rfl | member
      · exact ⟨start, usable.1⟩
      · exact ih usable.2 other member

theorem kind_of_edge {file : TopologyFile} (names : file.declared.Nodup) {kind : NodeKind}
    {name : Name} (label : (kind, name) ∈ coreLabels file.coreLayer ++ edgeLabels file.edgeLayer) :
    kind = .edgeServer ↔ name ∈ file.edgeLayer.map CloudNode.name := by
  have apart := (List.nodup_append.mp (List.nodup_append.mp names).1).2.2
  rcases List.mem_append.mp label with core | edge
  · obtain ⟨node, member, same⟩ := List.mem_map.mp core
    obtain ⟨rfl, rfl⟩ := Prod.mk.inj same
    refine iff_of_false (by decide) fun inside => ?_
    exact apart _ (List.mem_map_of_mem member) _ inside rfl
  · obtain ⟨node, member, same⟩ := List.mem_map.mp edge
    obtain ⟨rfl, rfl⟩ := Prod.mk.inj same
    exact iff_of_true rfl (List.mem_map_of_mem member)

/-- The passes return, and leave readers that the file's nodes are known to. -/
structure Passed (file : TopologyFile) (cores edges hosts : Reader) : Prop where
  core : parseCoreCloud {} file.coreLayer = some cores
  edge : cores.parseEdgeCloud file.edgeLayer = some edges
  access : edges.parseAccessNetwork file.accessLayer = some hosts

theorem Passed.known {file : TopologyFile} {cores edges hosts : Reader}
    (passed : Passed file cores edges hosts) :
    cores.Known (coreLabels file.coreLayer) ∧
      edges.Known (coreLabels file.coreLayer ++ edgeLabels file.edgeLayer) ∧
        EdgeMade cores edges
          (edgeLinks (file.coreLayer.map CloudNode.name) file.edgeLayer) := by
  have known := parseCoreCloud_known passed.core
  obtain ⟨edgesKnown, made⟩ := parseEdgeCloud_made known passed.edge
  rw [snd_coreLabels] at made
  exact ⟨known, edgesKnown, made⟩

theorem Passed.passable {file : TopologyFile} {cores edges hosts : Reader}
    (passed : Passed file cores edges hosts) (names : file.declared.Nodup) : file.Passable := by
  obtain ⟨known, edgesKnown, edgeMade⟩ := passed.known
  obtain ⟨recorded, coreMade⟩ := parseCoreCloud_recorded passed.core
  obtain ⟨needs, -, addressable⟩ := parseAccessNetwork_needs edgesKnown.unique passed.access
  refine ⟨coreMade.met _ (edgeMade.met _ addressable), ?_, ?_⟩
  · intro node member link inside
    have there := recorded.found _ (mem_listed.mpr ⟨node, member, link, inside, rfl⟩) link.target
      (Sym2.mem_mk_right _ _)
    rwa [known.isSome_iff, snd_coreLabels] at there
  · intro cluster member
    obtain ⟨link, gateway, needed⟩ := needs cluster member
    refine ⟨needed.nonempty, needed.lan, link, needed.head, ?_⟩
    obtain ⟨info, found, held⟩ := needed.found
    obtain ⟨id, kind, held', label⟩ := edgesKnown.infos link.target info found
    rw [held, Option.some.injEq] at held'
    subst held'
    obtain ⟨name, server⟩ := needed.server
    rw [edgesKnown.labels, label, Option.some.injEq] at server
    exact (kind_of_edge names (List.mem_of_getElem? label)).mp (Prod.mk.inj server).1

theorem Known.declares {file : TopologyFile} {reader : Reader} {cluster : EndCluster}
    (known : reader.Known (coreLabels file.coreLayer ++ edgeLabels file.edgeLayer))
    (names : file.declared.Nodup) (attached : file.Attached cluster) :
    reader.Declares cluster := by
  obtain ⟨link, head, target⟩ := attached.gateway
  have there := known.found link.target (by
    rw [List.map_append, snd_edgeLabels]
    exact List.mem_append_right _ target)
  obtain ⟨info, found⟩ := Option.isSome_iff_exists.mp there
  obtain ⟨id, kind, held, label⟩ := known.infos link.target info found
  refine ⟨link, info, id, head, found, held, ?_⟩
  rw [known.labels, label, (kind_of_edge names (List.mem_of_getElem? label)).mpr target]

theorem separate_of_attached {file : TopologyFile} (names : file.declared.Nodup)
    (attached : ∀ cluster ∈ file.accessLayer, file.Attached cluster) :
    Separate file.accessLayer := by
  obtain ⟨-, clusters, apart⟩ := List.nodup_append.mp names
  have other : ∀ before ∈ file.accessLayer, ∀ after ∈ file.accessLayer, ∀ link,
      after.gateways.head? = some link → link.target ≠ before.name := by
    intro before first after second link head
    obtain ⟨gateway, same, target⟩ := (attached after second).gateway
    rw [head, Option.some.injEq] at same
    subst same
    exact apart _ (List.mem_append_right _ target) _ (List.mem_map_of_mem first)
  refine ⟨fun cluster member => (attached cluster member).lan, clusters,
    fun cluster member => other cluster member cluster member, ?_⟩
  exact List.pairwise_of_forall_mem_list other

theorem passed_of_passable {file : TopologyFile} (names : file.declared.Nodup)
    (passable : file.Passable) :
    ∃ cores edges hosts, Passed file cores edges hosts ∧
      hosts.ClustersUsable edges.nodes.length file.accessLayer ∧
        Extends edges hosts file.accessLayer := by
  obtain ⟨cores, coreRan, free⟩ := parseCoreCloud_progress passable.core passable.addressable
  have known := parseCoreCloud_known coreRan
  rw [← snd_coreLabels] at free
  obtain ⟨edges, edgeRan, left⟩ := parseEdgeCloud_progress known free
  obtain ⟨edgesKnown, -⟩ := parseEdgeCloud_made known edgeRan
  rw [← List.append_nil (clusterDemands file.accessLayer)] at left
  obtain ⟨hosts, accessRan, usable, grown⟩ := parseAccessNetwork_progress left
    (fun cluster member => (passable.clusters cluster member).nonempty)
    (fun cluster member => edgesKnown.declares names (passable.clusters cluster member))
    (separate_of_attached names passable.clusters)
  exact ⟨cores, edges, hosts, ⟨coreRan, edgeRan, accessRan⟩, usable, grown⟩

theorem Parsed.passed {file : TopologyFile} {cores edges hosts : Reader}
    (parsed : Parsed file cores edges hosts) : Passed file cores edges hosts :=
  ⟨parsed.core, parsed.edge, parsed.access⟩

theorem Parsed.resolved {file : TopologyFile} {cores edges hosts : Reader}
    (parsed : Parsed file cores edges hosts) (names : file.declared.Nodup) : file.Resolved := by
  have passable := parsed.passed.passable names
  obtain ⟨known, -, edgeMade⟩ := parsed.passed.known
  obtain ⟨recorded, -⟩ := parseCoreCloud_recorded parsed.core
  refine ⟨passable, ?_, ?_⟩
  · rw [unambiguous_iff_shares, ← recorded.taken.all_iff]
    intro pair member
    obtain ⟨node, declared, link, inside, rfl⟩ := mem_listed.mp member
    exact parsed.coreLinks node declared link inside
      (List.mem_append_left _ (List.mem_append_left _ (passable.core node declared link inside)))
  · have distinct := (List.nodup_append.mp (List.nodup_append.mp names).1)
    rw [← edgeLinks_iff distinct.2.1]
    intro node member link inside declared
    have made := parsed.edgeLinks node member link inside declared
    rw [edgeMade.ends, List.mem_append] at made
    refine made.resolve_left fun core => ?_
    have first := known.fst_mem core
    rw [snd_coreLabels] at first
    exact distinct.2.2 _ first _ (List.mem_map_of_mem member) rfl

theorem parsed_of_resolved {file : TopologyFile} (names : file.declared.Nodup)
    (resolved : file.Resolved) : SkipsUnknown file := by
  obtain ⟨cores, edges, hosts, passed, usable, -⟩ := passed_of_passable names resolved.toPassable
  obtain ⟨-, edgesKnown, edgeMade⟩ := passed.known
  obtain ⟨recorded, -⟩ := parseCoreCloud_recorded passed.core
  refine ⟨cores, edges, hosts, passed.core, passed.edge, passed.access, ?_, ?_, ?_, ?_⟩
  · intro node member link inside _
    have all := recorded.taken.all_iff.mpr ((unambiguous_iff_shares _).mp resolved.unambiguous)
    exact all _ (mem_listed.mpr ⟨node, member, link, inside, rfl⟩)
  · intro node member link inside declared
    have distinct := (List.nodup_append.mp (List.nodup_append.mp names).1).2.1
    rw [edgeMade.ends]
    exact List.mem_append_right _
      ((edgeLinks_iff distinct).mpr resolved.edge node member link inside declared)
  · intro cluster member link head _
    obtain ⟨first, link', gateway, router, address, head', label, linked, named⟩ :=
      usable.mem cluster member
    rw [head, Option.some.injEq] at head'
    subst head'
    exact ⟨first, gateway, router, address, linked,
      (named 0 (resolved.clusters cluster member).nonempty).2, nameOf_of_label label⟩
  · intro name
    rw [parseAccessNetwork_infos edgesKnown.unique passed.access, edgesKnown.isSome_iff,
      List.map_append, snd_coreLabels, snd_edgeLabels, TopologyFile.declared, List.mem_append,
      List.mem_append, List.mem_append]

-- An edge server that names an undeclared node besides its core server, with the same network.
def strayEdge : TopologyFile where
  coreLayer := [⟨[1], []⟩]
  edgeLayer := [⟨[2], [⟨[9], ⟨0x0A010000, 16⟩⟩, ⟨[1], ⟨0x0A010000, 16⟩⟩]⟩]
  accessLayer := [⟨[3], 1, ⟨0x0A020000, 16⟩, .csma, [⟨[2], ⟨0x0A030000, 16⟩⟩]⟩]
  centralNode := [1]

-- A core server that names an undeclared node.
def strayCore : TopologyFile where
  coreLayer := [⟨[1], [⟨[9], ⟨0x0A000000, 16⟩⟩]⟩]
  edgeLayer := []
  accessLayer := []
  centralNode := [1]

end Reader

end FISim.Topology
