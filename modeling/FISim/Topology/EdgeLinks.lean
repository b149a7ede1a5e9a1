import FISim.Topology.CoreLinks

/-!
The links of the edge servers.  Their targets are looked up by name, and those that are not known
yet are left out.
-/

namespace FISim.Topology

/-- The targets of an edge server that are among the names are already known when it is come to. -/
def KnownInTime (known names : List Name) : List CloudNode → Prop
  | [] => True
  | node :: rest =>
      (∀ link ∈ node.links, link.target ∈ names → link.target ∈ known ++ [node.name]) ∧
        KnownInTime (known ++ [node.name]) names rest

/-- The links that an edge server gets: those to names that are known. -/
def foundLinks (known : List Name) (source : Name) (links : List Link) : List (Name × Link) :=
  (links.filter fun link => link.target ∈ known).map fun link => (source, link)

def edgeLinks : List Name → List CloudNode → List (Name × Link)
  | _, [] => []
  | known, node :: rest =>
      foundLinks (known ++ [node.name]) node.name node.links ++ edgeLinks (known ++ [node.name]) rest

def directed (made : Name × Link) : Name × Name := (made.1, made.2.target)

def edgeDemands (known : List Name) (nodes : List CloudNode) : List (Subnet × ℕ) :=
  (edgeLinks known nodes).map linkDemand

theorem foundLinks_cons (known : List Name) (source : Name) (link : Link) (rest : List Link) :
    foundLinks known source (link :: rest) =
      foundLinks known source [link] ++ foundLinks known source rest := by
  rw [foundLinks, foundLinks, foundLinks, ← List.map_append, ← List.filter_append,
    List.singleton_append]

theorem mem_foundLinks {known : List Name} {source : Name} {links : List Link}
    {made : Name × Link} :
    made ∈ foundLinks known source links ↔
      made.1 = source ∧ made.2.target ∈ known ∧ made.2 ∈ links := by
  simp only [foundLinks, List.mem_map, List.mem_filter, decide_eq_true_eq]
  constructor
  · rintro ⟨link, ⟨member, inside⟩, rfl⟩
    exact ⟨rfl, inside, member⟩
  · rintro ⟨rfl, inside, member⟩
    exact ⟨made.2, ⟨member, inside⟩, rfl⟩

theorem fst_mem_of_edgeLinks {nodes : List CloudNode} {known : List Name} {made : Name × Link}
    (member : made ∈ edgeLinks known nodes) : made.1 ∈ nodes.map CloudNode.name := by
  induction nodes generalizing known with
  | nil => exact absurd member List.not_mem_nil
  | cons node rest ih =>
      rcases List.mem_append.mp member with own | later
      · rw [(mem_foundLinks.mp own).1]
        exact List.mem_cons_self
      · exact List.mem_cons_of_mem _ (ih later)

theorem directed_mem_foundLinks {known : List Name} {source name : Name} {links : List Link}
    {link : Link} (inside : link ∈ links) :
    (name, link.target) ∈ (foundLinks known source links).map directed ↔
      name = source ∧ link.target ∈ known := by
  constructor
  · intro member
    obtain ⟨made, found, same⟩ := List.mem_map.mp member
    obtain ⟨own, there, -⟩ := mem_foundLinks.mp found
    obtain ⟨rfl, target⟩ := Prod.mk.inj same
    exact ⟨own, target ▸ there⟩
  · rintro ⟨rfl, there⟩
    exact List.mem_map.mpr ⟨(name, link), mem_foundLinks.mpr ⟨rfl, there, inside⟩, rfl⟩

theorem edgeLinks_iff {nodes : List CloudNode} {known names : List Name}
    (distinct : (nodes.map CloudNode.name).Nodup) :
    (∀ node ∈ nodes, ∀ link ∈ node.links, link.target ∈ names →
      (node.name, link.target) ∈ (edgeLinks known nodes).map directed) ↔
        KnownInTime known names nodes := by
  induction nodes generalizing known with
  | nil => exact iff_of_true (fun _ member => absurd member List.not_mem_nil) trivial
  | cons node rest ih =>
      obtain ⟨apart, others⟩ := List.nodup_cons.mp distinct
      rw [edgeLinks, List.map_append]
      constructor
      · intro made
        refine ⟨?_, (ih others).mp ?_⟩
        · intro link member inside
          rcases List.mem_append.mp (made node List.mem_cons_self link member inside) with own | later
          · exact ((directed_mem_foundLinks member).mp own).2
          · obtain ⟨other, found, same⟩ := List.mem_map.mp later
            exact absurd ((Prod.mk.inj same).1 ▸ fst_mem_of_edgeLinks found) apart
        · intro other member link inside declared
          rcases List.mem_append.mp
            (made other (List.mem_cons_of_mem _ member) link inside declared) with own | later
          · obtain ⟨found, there, same⟩ := List.mem_map.mp own
            rw [← (mem_foundLinks.mp there).1, (Prod.mk.inj same).1] at apart
            exact absurd (List.mem_map_of_mem member) apart
          · exact later
      · rintro ⟨own, later⟩ other member link inside declared
        rcases List.mem_cons.mp member with rfl | member
        · exact List.mem_append_left _
            ((directed_mem_foundLinks inside).mpr ⟨rfl, own link inside declared⟩)
        · exact List.mem_append_right _ ((ih others).mpr later other member link inside declared)

namespace Reader

/-- The names at the two ends of each link, that of the node which lists the other first. -/
def directedEnds (reader : Reader) : List (Name × Name) :=
  (pairUp reader.interfaces).map fun link => (reader.nameOf link.1.2, reader.nameOf link.2.2)

/-- What holds between the passes over the servers, whatever their links: `entries` are the
labels of the nodes so far, and `m_nodeInfoMap` holds these nodes and nothing else. -/
structure Known (reader : Reader) (entries : List (NodeKind × Name)) : Prop where
  labels : reader.labels = entries
  infos : ∀ name info, reader.nodeInfoMap name = some info →
    ∃ id kind, info.node = some id ∧ entries[id]? = some (kind, name)
  found : ∀ name ∈ entries.map Prod.snd, (reader.nodeInfoMap name).isSome
  unique : (reader.interfaces.map Prod.fst).Nodup
  even : Even reader.interfaces.length
  owned : ∀ interface ∈ reader.interfaces, interface.2 < entries.length

theorem Known.isSome_iff {reader : Reader} {entries : List (NodeKind × Name)}
    (known : reader.Known entries) (name : Name) :
    (reader.nodeInfoMap name).isSome ↔ name ∈ entries.map Prod.snd := by
  refine ⟨fun there => ?_, known.found name⟩
  obtain ⟨info, found⟩ := Option.isSome_iff_exists.mp there
  obtain ⟨id, kind, -, label⟩ := known.infos name info found
  exact List.mem_map_of_mem (List.mem_of_getElem? label)

theorem Known.same {before after : Reader} {entries : List (NodeKind × Name)}
    {first second : UInt32 × ℕ} (known : before.Known entries) (same : Same before after)
    (grown : after.interfaces = before.interfaces ++ [first, second])
    (unique : (after.interfaces.map Prod.fst).Nodup)
    (inside : first.2 < entries.length ∧ second.2 < entries.length) : after.Known entries := by
  refine ⟨same.labels.trans known.labels, ?_, ?_, unique, ?_, ?_⟩
  · rw [same.nodeInfoMap]
    exact known.infos
  · rw [same.nodeInfoMap]
    exact known.found
  · rw [grown, List.length_append]
    exact known.even.add even_two
  · intro interface member
    rw [grown, List.mem_append, List.mem_pair] at member
    rcases member with old | rfl | rfl
    · exact known.owned interface old
    · exact inside.1
    · exact inside.2

theorem directedEnds_append {before after : Reader} {first second : UInt32 × ℕ}
    (same : Same before after) (even : Even before.interfaces.length)
    (grown : after.interfaces = before.interfaces ++ [first, second]) :
    after.directedEnds =
      before.directedEnds ++ [(before.nameOf first.2, before.nameOf second.2)] := by
  rw [directedEnds, grown, pairUp_append even, List.map_append, directedEnds]
  simp only [same.nameOf, List.map_singleton]

/-- What the passes over edge servers add: the links, and for each of them its addresses. -/
structure EdgeMade (before after : Reader) (made : List (Name × Link)) : Prop where
  ends : after.directedEnds = before.directedEnds ++ made.map directed
  met : ∀ rest, Addressable (after.interfaces.map Prod.fst) rest →
    Addressable (before.interfaces.map Prod.fst) (made.map linkDemand ++ rest)
  kept : Kept before after

theorem EdgeMade.refl (reader : Reader) : EdgeMade reader reader [] :=
  ⟨(List.append_nil _).symm, fun _ later => later, fun _ _ held _ => held, fun _ there => there⟩

theorem EdgeMade.trans {first second third : Reader} {one two : List (Name × Link)}
    (made : EdgeMade first second one) (more : EdgeMade second third two) :
    EdgeMade first third (one ++ two) := by
  refine ⟨?_, ?_, made.kept.trans more.kept⟩
  · rw [more.ends, made.ends, List.append_assoc, List.map_append]
  · intro rest later
    rw [List.map_append, List.append_assoc]
    exact made.met _ (more.met rest later)

theorem linkEdgeServer_made {reader after : Reader} {entries : List (NodeKind × Name)}
    {edgeServer : ℕ} {name : Name} {link : Link} (known : reader.Known entries)
    (label : entries[edgeServer]? = some (.edgeServer, name))
    (ran : linkEdgeServer edgeServer reader link = some after) :
    after.Known entries ∧
      EdgeMade reader after (foundLinks (entries.map Prod.snd) name [link]) := by
  unfold linkEdgeServer at ran
  split at ran
  · rename_i absent
    rw [← Option.some.inj ran]
    have unknown : link.target ∉ entries.map Prod.snd := by
      rw [← known.isSome_iff, absent]
      exact Bool.false_ne_true
    rw [foundLinks, List.filter_cons_of_neg (by simpa using unknown)]
    exact ⟨known, .refl reader⟩
  · rename_i info found
    have member : link.target ∈ entries.map Prod.snd := by
      rw [← known.isSome_iff, found]
      rfl
    obtain ⟨id, kind', held, target⟩ := known.infos link.target info found
    simp only [held, Option.bind_eq_bind, Option.bind_some] at ran
    obtain ⟨⟨linked, first, second⟩, made, ran⟩ := Option.bind_eq_some_iff.mp ran
    obtain ⟨grown, apart, met⟩ := createP2PLink_interfaces known.unique made
    have same : Same reader linked := by
      rw [grown]
      exact ⟨rfl, rfl, rfl, rfl⟩
    have all := (same.trans (same_attach linked edgeServer id second)).trans
      (same_modify _ edgeServer (keeps_addGlobalIp first))
    have drawn : linked.interfaces = reader.interfaces ++ [(first, edgeServer), (second, id)] :=
      congrArg Reader.interfaces grown
    have interfaces : after.interfaces = linked.interfaces := by
      rw [← Option.some.inj ran]
      rfl
    rw [Option.some.inj ran] at all
    have one : reader.nameOf edgeServer = name := nameOf_of_label (by rw [known.labels, label])
    have two : reader.nameOf id = link.target := nameOf_of_label (by rw [known.labels, target])
    have only : foundLinks (entries.map Prod.snd) name [link] = [(name, link)] := by
      rw [foundLinks, List.filter_cons_of_pos (by simpa using member)]
      rfl
    refine ⟨known.same all (interfaces.trans drawn) (interfaces ▸ apart) ⟨?_, ?_⟩, ?_, ?_, ?_, ?_⟩
    · exact (List.getElem?_eq_some_iff.mp label).1
    · exact (List.getElem?_eq_some_iff.mp target).1
    · rw [directedEnds_append all known.even (interfaces.trans drawn), one, two, only]
      rfl
    · intro rest later
      rw [interfaces] at later
      rw [only]
      exact met rest later
    · intro other node there core
      have different : other ≠ edgeServer := by
        rintro rfl
        have both := (known.labels ▸ label_of there).symm.trans label
        rw [core] at both
        exact absurd (Prod.mk.inj (Option.some.inj both)).1 (by decide)
      rw [← Option.some.inj ran, modify_other different, modify_other different,
        modify_other different, grown]
      exact there
    · rw [all.nodeName2Ptr]
      exact fun _ there => there

theorem linkEdgeServer_progress {reader : Reader} {entries : List (NodeKind × Name)}
    (edgeServer : ℕ) {name : Name} {link : Link} {rest : List (Subnet × ℕ)}
    (known : reader.Known entries)
    (addressable : Addressable (reader.interfaces.map Prod.fst)
      ((foundLinks (entries.map Prod.snd) name [link]).map linkDemand ++ rest)) :
    ∃ after, linkEdgeServer edgeServer reader link = some after ∧
      Addressable (after.interfaces.map Prod.fst) rest := by
  unfold linkEdgeServer
  split
  · rename_i absent
    have unknown : link.target ∉ entries.map Prod.snd := by
      rw [← known.isSome_iff, absent]
      exact Bool.false_ne_true
    rw [foundLinks, List.filter_cons_of_neg (by simpa using unknown)] at addressable
    exact ⟨reader, rfl, addressable⟩
  · rename_i info found
    have member : link.target ∈ entries.map Prod.snd := by
      rw [← known.isSome_iff, found]
      rfl
    rw [foundLinks, List.filter_cons_of_pos (by simpa using member)] at addressable
    obtain ⟨id, kind, held, -⟩ := known.infos link.target info found
    obtain ⟨first, second, after, made, -, later⟩ :=
      createP2PLink_of_addressable edgeServer id addressable
    simp only [held, made, Option.bind_eq_bind, Option.bind_some]
    exact ⟨_, rfl, later⟩

theorem linkEdgeServers_made {links : List Link} {reader after : Reader}
    {entries : List (NodeKind × Name)} {edgeServer : ℕ} {name : Name}
    (known : reader.Known entries) (label : entries[edgeServer]? = some (.edgeServer, name))
    (ran : links.foldlM (linkEdgeServer edgeServer) reader = some after) :
    after.Known entries ∧ EdgeMade reader after (foundLinks (entries.map Prod.snd) name links) := by
  induction links generalizing reader with
  | nil =>
      rw [← Option.some.inj ran]
      exact ⟨known, .refl reader⟩
  | cons link rest ih =>
      rw [List.foldlM_cons] at ran
      obtain ⟨middle, first, later⟩ := Option.bind_eq_some_iff.mp ran
      obtain ⟨held, made⟩ := linkEdgeServer_made known label first
      obtain ⟨final, more⟩ := ih held later
      rw [foundLinks_cons]
      exact ⟨final, made.trans more⟩

theorem Known.createCloudNode {reader : Reader} {entries : List (NodeKind × Name)}
    (known : reader.Known entries) (kind : NodeKind) (node : CloudNode) :
    (reader.createCloudNode kind node).1.Known (entries ++ [(kind, node.name)]) := by
  have length : reader.nodes.length = entries.length := by
    rw [← labels_length, known.labels]
  refine ⟨?_, ?_, ?_, known.unique, known.even, ?_⟩
  · rw [← known.labels]
    exact labels_createNode reader kind node.name
  · intro name info found
    change Function.update reader.nodeInfoMap node.name _ name = some info at found
    by_cases same : name = node.name
    · subst same
      rw [Function.update_self, Option.some.injEq] at found
      subst found
      exact ⟨reader.nodes.length, kind, rfl, by rw [length, List.getElem?_concat_length]⟩
    · rw [Function.update_of_ne same] at found
      obtain ⟨id, kind', held, label⟩ := known.infos name info found
      exact ⟨id, kind', held,
        (List.getElem?_append_left (List.getElem?_eq_some_iff.mp label).1).trans label⟩
  · intro name member
    change (Function.update reader.nodeInfoMap node.name _ name).isSome
    by_cases same : name = node.name
    · subst same
      rw [Function.update_self]
      rfl
    · rw [Function.update_of_ne same]
      exact known.found name (by simpa [same] using member)
  · intro interface member
    rw [List.length_append]
    have inside := known.owned interface member
    omega

theorem mem_pairUp {Item : Type} {items : List Item} {pair : Item × Item}
    (member : pair ∈ pairUp items) : pair.1 ∈ items ∧ pair.2 ∈ items := by
  match items with
  | [] | [_] => exact absurd member List.not_mem_nil
  | first :: second :: rest =>
      rcases List.mem_cons.mp member with rfl | later
      · exact ⟨List.mem_cons_self, List.mem_cons_of_mem _ List.mem_cons_self⟩
      · obtain ⟨one, two⟩ := mem_pairUp later
        exact ⟨List.mem_cons_of_mem _ (List.mem_cons_of_mem _ one),
          List.mem_cons_of_mem _ (List.mem_cons_of_mem _ two)⟩

theorem Known.directedEnds_createCloudNode {reader : Reader} {entries : List (NodeKind × Name)}
    (known : reader.Known entries) (kind : NodeKind) (node : CloudNode) :
    (reader.createCloudNode kind node).1.directedEnds = reader.directedEnds := by
  have names : ∀ id < entries.length,
      (reader.createCloudNode kind node).1.nameOf id = reader.nameOf id := by
    intro id inside
    rw [← known.labels, labels_length] at inside
    change (((reader.nodes ++ [_])[id]?).map CybertwinNode.name).getD [] = _
    rw [List.getElem?_append_left inside]
    rfl
  refine List.map_congr_left fun link member => ?_
  obtain ⟨one, two⟩ := mem_pairUp member
  rw [names _ (known.owned _ one), names _ (known.owned _ two)]

def edgeLabels (nodes : List CloudNode) : List (NodeKind × Name) :=
  nodes.map fun node => (.edgeServer, node.name)

theorem parseEdgeServer_made {reader after : Reader} {entries : List (NodeKind × Name)}
    {node : CloudNode} (known : reader.Known entries)
    (ran : parseEdgeServer reader node = some after) :
    after.Known (entries ++ [(.edgeServer, node.name)]) ∧ EdgeMade reader after
      (foundLinks (entries.map Prod.snd ++ [node.name]) node.name node.links) := by
  have created := known.createCloudNode .edgeServer node
  have label : (entries ++ [(NodeKind.edgeServer, node.name)])[reader.nodes.length]? =
      some (.edgeServer, node.name) := by
    rw [← labels_length, known.labels, List.getElem?_concat_length]
  obtain ⟨final, made⟩ := linkEdgeServers_made created label ran
  rw [List.map_append] at made
  refine ⟨final, ?_, made.met, ?_⟩
  · rw [made.ends, known.directedEnds_createCloudNode]
    rfl
  · have grown := kept_createNode reader .edgeServer node.name
    have created : Kept reader (reader.createCloudNode .edgeServer node).1 :=
      ⟨grown.cores, grown.pointers⟩
    exact created.trans made.kept

theorem parseEdgeCloud_made {nodes : List CloudNode} {reader after : Reader}
    {entries : List (NodeKind × Name)} (known : reader.Known entries)
    (ran : parseEdgeCloud reader nodes = some after) :
    after.Known (entries ++ edgeLabels nodes) ∧
      EdgeMade reader after (edgeLinks (entries.map Prod.snd) nodes) := by
  induction nodes generalizing reader entries with
  | nil =>
      rw [← Option.some.inj ran]
      exact ⟨(List.append_nil entries).symm ▸ known, .refl reader⟩
  | cons node rest ih =>
      rw [parseEdgeCloud, List.foldlM_cons] at ran
      obtain ⟨middle, first, later⟩ := Option.bind_eq_some_iff.mp ran
      obtain ⟨held, made⟩ := parseEdgeServer_made known first
      obtain ⟨final, more⟩ := ih held later
      rw [List.append_assoc] at final
      rw [List.map_append] at more
      exact ⟨final, made.trans more⟩

theorem parseEdgeServer_progress {reader : Reader} {entries : List (NodeKind × Name)}
    {node : CloudNode} {rest : List (Subnet × ℕ)} (known : reader.Known entries)
    (addressable : Addressable (reader.interfaces.map Prod.fst)
      ((foundLinks (entries.map Prod.snd ++ [node.name]) node.name node.links).map linkDemand ++
        rest)) :
    ∃ after, parseEdgeServer reader node = some after ∧
      Addressable (after.interfaces.map Prod.fst) rest := by
  have label : (entries ++ [(NodeKind.edgeServer, node.name)])[reader.nodes.length]? =
      some (.edgeServer, node.name) := by
    rw [← labels_length, known.labels, List.getElem?_concat_length]
  have start : Addressable (((reader.createCloudNode .edgeServer node).1.interfaces).map Prod.fst)
      ((foundLinks ((entries ++ [(NodeKind.edgeServer, node.name)]).map Prod.snd) node.name
        node.links).map linkDemand ++ rest) := by
    rw [List.map_append]
    exact addressable
  obtain ⟨after, ran, -, later⟩ := Transition.exists_run
    (fun (reader : Reader) links => reader.Known (entries ++ [(.edgeServer, node.name)]) ∧
      Addressable (reader.interfaces.map Prod.fst)
        ((foundLinks ((entries ++ [(NodeKind.edgeServer, node.name)]).map Prod.snd) node.name
          links).map linkDemand ++ rest))
    (fun _ link links ⟨known, addressable⟩ => by
      rw [foundLinks_cons, List.map_append, List.append_assoc] at addressable
      obtain ⟨after, ran, later⟩ := linkEdgeServer_progress reader.nodes.length known addressable
      exact ⟨after, ran, (linkEdgeServer_made known label ran).1, later⟩)
    ⟨known.createCloudNode .edgeServer node, start⟩
  exact ⟨after, ran, later⟩

theorem parseEdgeCloud_progress {nodes : List CloudNode} {reader : Reader}
    {entries : List (NodeKind × Name)} {rest : List (Subnet × ℕ)} (known : reader.Known entries)
    (addressable : Addressable (reader.interfaces.map Prod.fst)
      (edgeDemands (entries.map Prod.snd) nodes ++ rest)) :
    ∃ after, parseEdgeCloud reader nodes = some after ∧
      Addressable (after.interfaces.map Prod.fst) rest := by
  obtain ⟨after, ran, _, -, later⟩ := Transition.exists_run
    (fun (reader : Reader) nodes => ∃ entries, reader.Known entries ∧
      Addressable (reader.interfaces.map Prod.fst)
        (edgeDemands (entries.map Prod.snd) nodes ++ rest))
    (fun reader node nodes ⟨entries, known, addressable⟩ => by
      rw [edgeDemands, edgeLinks, List.map_append, List.append_assoc] at addressable
      obtain ⟨after, ran, later⟩ := parseEdgeServer_progress known addressable
      refine ⟨after, ran, _, (parseEdgeServer_made known ran).1, ?_⟩
      rw [List.map_append]
      exact later)
    ⟨entries, known, addressable⟩
  exact ⟨after, ran, later⟩

def coreLabels (nodes : List CloudNode) : List (NodeKind × Name) :=
  nodes.map fun node => (.coreServer, node.name)

theorem createCoreServers_known (nodes : List CloudNode) {reader : Reader}
    {entries : List (NodeKind × Name)} (known : reader.Known entries) :
    (nodes.foldl createCoreServer reader).Known (entries ++ coreLabels nodes) := by
  induction nodes generalizing reader entries with
  | nil => exact (List.append_nil entries).symm ▸ known
  | cons node rest ih =>
      have made := known.createCloudNode .coreServer node
      have first : (reader.createCoreServer node).Known (entries ++ [(.coreServer, node.name)]) :=
        ⟨made.labels, made.infos, made.found, made.unique, made.even, made.owned⟩
      have later := ih first
      rwa [List.append_assoc] at later

theorem known_empty : Known {} [] := by
  refine ⟨rfl, ?_, ?_, List.nodup_nil, Even.zero, ?_⟩
  · exact fun _ _ found => by cases found
  · exact fun _ member => absurd member List.not_mem_nil
  · exact fun _ member => absurd member List.not_mem_nil

theorem parseCoreCloud_known {nodes : List CloudNode} {reader : Reader}
    (ran : parseCoreCloud {} nodes = some reader) : reader.Known (coreLabels nodes) := by
  obtain ⟨same, sound⟩ := parseCoreCloud_same ran
  obtain ⟨recorded, -⟩ := parseCoreCloud_recorded ran
  have start := createCoreServers_known nodes known_empty
  rw [List.nil_append] at start
  refine ⟨same.labels.trans start.labels, ?_, ?_, sound.unique, recorded.even, ?_⟩
  · rw [same.nodeInfoMap]
    exact start.infos
  · rw [same.nodeInfoMap]
    exact start.found
  · rw [← start.labels, ← same.labels, labels_length]
    exact recorded.owned

theorem snd_coreLabels (nodes : List CloudNode) :
    (coreLabels nodes).map Prod.snd = nodes.map CloudNode.name := by
  rw [coreLabels, List.map_map]
  rfl

theorem snd_edgeLabels (nodes : List CloudNode) :
    (edgeLabels nodes).map Prod.snd = nodes.map CloudNode.name := by
  rw [edgeLabels, List.map_map]
  rfl

theorem Known.fst_mem {reader : Reader} {entries : List (NodeKind × Name)}
    (known : reader.Known entries) {pair : Name × Name} (member : pair ∈ reader.directedEnds) :
    pair.1 ∈ entries.map Prod.snd := by
  obtain ⟨link, inside, rfl⟩ := List.mem_map.mp member
  have owned := known.owned _ (mem_pairUp inside).1
  have label : reader.labels[link.1.2]? = some entries[link.1.2] := by
    rw [known.labels, List.getElem?_eq_getElem owned]
  obtain ⟨kind, name⟩ := entries[link.1.2]
  rw [nameOf_of_label label]
  exact List.mem_map_of_mem (List.getElem_mem owned)

end Reader

end FISim.Topology
