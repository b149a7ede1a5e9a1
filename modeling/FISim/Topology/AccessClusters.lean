import FISim.Topology.Addresses
import FISim.Topology.Hierarchy

/-!
The hosts of the access clusters: what `ParseAccessNetwork` makes of them, and for
which lists of clusters each host is attached to its gateway and found by its name.
-/

namespace FISim.Topology

theorem append_mark_inj {mark : UInt8} {first second one two : Name}
    (same : first ++ mark :: one = second ++ mark :: two) (absent : mark ∉ one)
    (missing : mark ∉ two) : first = second ∧ one = two := by
  rcases List.append_eq_append_iff.mp same with ⟨more, rfl, rest⟩ | ⟨more, rfl, rest⟩
  · cases more with
    | nil => exact ⟨(List.append_nil _).symm, (List.cons.inj rest).2⟩
    | cons head tail =>
        rw [(List.cons.inj rest).2] at absent
        exact absurd (List.mem_append_right _ List.mem_cons_self) absent
  · cases more with
    | nil => exact ⟨List.append_nil _, (List.cons.inj rest).2.symm⟩
    | cons head tail =>
        rw [(List.cons.inj rest).2] at missing
        exact absurd (List.mem_append_right _ List.mem_cons_self) missing

theorem toUInt8_of_isDigit {digit : Char} (isDigit : digit.isDigit) :
    digit.toUInt8 ≠ 95 ∧ Char.ofNat digit.toUInt8.toNat = digit := by
  have bounds : 48 ≤ digit.toNat ∧ digit.toNat ≤ 57 := by
    simpa [Char.isDigit, Char.le_def, UInt32.le_iff_toNat_le] using isDigit
  have byte : digit.toUInt8.toNat = digit.toNat := by
    change digit.toNat % 256 = digit.toNat
    omega
  refine ⟨fun mark => ?_, by rw [byte, Char.ofNat_toNat]⟩
  rw [mark] at byte
  change 95 = digit.toNat at byte
  omega

theorem modify_append_cons {Item : Type} (before after : List Item) (item : Item)
    (change : Item → Item) :
    (before ++ item :: after).modify before.length change = before ++ change item :: after := by
  induction before with
  | nil => rfl
  | cons head tail ih => rw [List.cons_append, List.length_cons, List.modify_succ_cons, ih]; rfl

namespace Reader

theorem mark_not_mem_digits (index : ℕ) :
    (95 : UInt8) ∉ (Nat.toDigits 10 index).map Char.toUInt8 := by
  intro member
  obtain ⟨digit, inside, mark⟩ := List.mem_map.mp member
  have isDigit := Nat.isDigit_of_mem_toDigits (by decide) (by decide) inside
  exact (toUInt8_of_isDigit isDigit).1 mark

theorem digits_map_back (index : ℕ) :
    ((Nat.toDigits 10 index).map Char.toUInt8).map (fun byte => Char.ofNat byte.toNat) =
      Nat.toDigits 10 index := by
  rw [List.map_map]
  conv_rhs => rw [← List.map_id (Nat.toDigits 10 index)]
  refine List.map_congr_left fun digit inside => ?_
  exact (toUInt8_of_isDigit (Nat.isDigit_of_mem_toDigits (by decide) (by decide) inside)).2

theorem hostName_inj {first second : Name} {one two : ℕ} :
    hostName first one = hostName second two ↔ first = second ∧ one = two := by
  constructor
  · intro same
    rw [hostName, hostName, List.append_assoc, List.append_assoc, List.singleton_append,
      List.singleton_append] at same
    obtain ⟨names, texts⟩ :=
      append_mark_inj same (mark_not_mem_digits one) (mark_not_mem_digits two)
    have digits := congrArg (List.map fun byte : UInt8 => Char.ofNat byte.toNat) texts
    rw [digits_map_back, digits_map_back] at digits
    refine ⟨names, ?_⟩
    rw [← @Nat.ofDigitChars_ten_toDigits one, digits, Nat.ofDigitChars_ten_toDigits]
  · rintro ⟨rfl, rfl⟩
    rfl

/-- What a node is and how it is attached. -/
def tie (node : CybertwinNode) : NodeKind × Name × List ℕ × Option UInt32 :=
  (node.kind, node.name, node.parents, node.upperNodeAddress)

def ties (reader : Reader) : List (NodeKind × Name × List ℕ × Option UInt32) :=
  reader.nodes.map tie

def attachTie (gateway : ℕ) (address : UInt32) :
    NodeKind × Name × List ℕ × Option UInt32 → NodeKind × Name × List ℕ × Option UInt32
  | (kind, name, parents, _) =>
      (kind, name, if gateway ∈ parents then parents else parents ++ [gateway], some address)

theorem ties_length (reader : Reader) : reader.ties.length = reader.nodes.length := by
  rw [ties, List.length_map]

theorem labels_eq_ties (reader : Reader) :
    reader.labels = reader.ties.map fun entry => (entry.1, entry.2.1) := by
  rw [ties, List.map_map]
  rfl

theorem ties_modify (reader : Reader) (id : ℕ) {change : CybertwinNode → CybertwinNode}
    (turn : NodeKind × Name × List ℕ × Option UInt32 → NodeKind × Name × List ℕ × Option UInt32)
    (turns : ∀ node, tie (change node) = turn (tie node)) :
    (reader.modify id change).ties = reader.ties.modify id turn := by
  refine List.ext_getElem? fun other => ?_
  rw [ties, modify, List.getElem?_map, List.getElem?_modify, List.getElem?_modify, ties,
    List.getElem?_map]
  cases reader.nodes[other]? with
  | none => split <;> rfl
  | some node =>
      split
      · exact congrArg some (turns node)
      · rfl

theorem ties_modify_same (reader : Reader) (id : ℕ) {change : CybertwinNode → CybertwinNode}
    (keeps : ∀ node, tie (change node) = tie node) : (reader.modify id change).ties = reader.ties := by
  rw [ties_modify reader id (fun entry => entry) keeps]
  exact List.modify_id id reader.ties

theorem tie_attach (gateway : ℕ) (address : UInt32) (node : CybertwinNode) :
    tie (CybertwinNode.setUpperNodeAddress address (CybertwinNode.addParent gateway node)) =
      attachTie gateway address (tie node) := by
  unfold CybertwinNode.addParent
  split
  · rename_i known
    simp [tie, attachTie, CybertwinNode.setUpperNodeAddress, known]
  · rename_i unknown
    simp [tie, attachTie, CybertwinNode.setUpperNodeAddress, unknown]

theorem ties_attachHost (gateway : ℕ) (address : UInt32) (reader : Reader) (host : ℕ) :
    (attachHost gateway address reader host).ties =
      reader.ties.modify host (attachTie gateway address) := by
  rw [← ties_modify reader host _ (tie_attach gateway address)]
  unfold attachHost modify
  rw [List.modify_modify_eq]
  rfl

theorem ties_attachHosts (gateway : ℕ) (address : UInt32)
    (hosts old : List (NodeKind × Name × List ℕ × Option UInt32)) {reader : Reader}
    (split : reader.ties = old ++ hosts) :
    ((List.range' old.length hosts.length).foldl (attachHost gateway address) reader).ties =
      old ++ hosts.map (attachTie gateway address) := by
  induction hosts generalizing old reader with
  | nil => exact split
  | cons host rest ih =>
      have first : (attachHost gateway address reader old.length).ties =
          (old ++ [attachTie gateway address host]) ++ rest := by
        rw [ties_attachHost, split, modify_append_cons, List.append_assoc]
        rfl
      have later := ih _ first
      rw [List.length_append, List.length_singleton] at later
      rw [List.length_cons, List.range'_succ, List.foldl_cons, later, List.append_assoc]
      rfl

theorem attachHosts_frame (gateway : ℕ) (address : UInt32) (hosts : List ℕ) (reader : Reader) :
    hosts.foldl (attachHost gateway address) reader =
      { reader with nodes := (hosts.foldl (attachHost gateway address) reader).nodes } := by
  induction hosts generalizing reader with
  | nil => rfl
  | cons host rest ih => exact ih (attachHost gateway address reader host)

def newHosts (cluster : EndCluster) : List CybertwinNode :=
  (List.range cluster.numNodes).map fun index =>
    { kind := .endHost, name := hostName cluster.name index }

/-- What `m_nodeName2Ptr` holds when the first hosts of a cluster are made. -/
structure Pointed (before after : Reader) (cluster : Name) (count : ℕ) : Prop where
  hosts : ∀ index < count,
    after.nodeName2Ptr (hostName cluster index) = some (before.nodes.length + index)
  others : ∀ name, (∀ index < count, name ≠ hostName cluster index) →
    after.nodeName2Ptr name = before.nodeName2Ptr name

theorem createNodes_made (reader : Reader) (cluster : Name) (count : ℕ) :
    let after := (List.range count).foldl
      (fun reader index => (reader.createNode .endHost (hostName cluster index)).1) reader
    after.nodes = (reader.nodes ++ (List.range count).map fun index =>
        { kind := .endHost, name := hostName cluster index }) ∧
      Pointed reader after cluster count ∧
      after = { reader with nodes := after.nodes, nodeName2Ptr := after.nodeName2Ptr } := by
  induction count with
  | zero => exact ⟨(List.append_nil _).symm, ⟨fun _ small => by omega, fun _ _ => rfl⟩, rfl⟩
  | succ count ih =>
      obtain ⟨nodes, pointed, rest⟩ := ih
      simp only [List.range_succ, List.foldl_append, List.foldl_cons, List.foldl_nil,
        List.map_append, List.map_cons, List.map_nil] at *
      generalize made : (List.range count).foldl
        (fun reader index => (reader.createNode .endHost (hostName cluster index)).1) reader = middle
        at *
      refine ⟨?_, ⟨?_, ?_⟩, ?_⟩
      · change middle.nodes ++ [_] = _
        rw [nodes, List.append_assoc]
      · intro index small
        change Function.update middle.nodeName2Ptr (hostName cluster count)
          (some middle.nodes.length) (hostName cluster index) = _
        by_cases last : index = count
        · rw [last, Function.update_self, nodes, List.length_append, List.length_map,
            List.length_range]
        · rw [Function.update_of_ne fun same => last (hostName_inj.mp same).2]
          exact pointed.hosts index (by omega)
      · intro name other
        change Function.update middle.nodeName2Ptr (hostName cluster count)
          (some middle.nodes.length) name = _
        rw [Function.update_of_ne (other count (Nat.lt_succ_self count))]
        exact pointed.others name fun index small => other index (by omega)
      · rw [rest]
        rfl

/-- A cluster before it is linked to its gateway. -/
structure LanMade (before after : Reader) (cluster : EndCluster) : Prop where
  unique : (after.interfaces.map Prod.fst).Nodup
  nodes : ∀ id < before.nodes.length, after.nodes[id]? = before.nodes[id]?
  ties : after.ties = before.ties ++ (newHosts cluster).map tie
  interfaces : before.interfaces <+: after.interfaces
  nodeInfoMap : after.nodeInfoMap = before.nodeInfoMap
  pointed : Pointed before after cluster.name cluster.numNodes
  met : ∀ rest, Addressable (after.interfaces.map Prod.fst) rest →
    Addressable (before.interfaces.map Prod.fst)
      ((cluster.localNetwork, cluster.numNodes) :: rest)

theorem addLocalIps_frame (hosts : List (ℕ × UInt32)) (reader : Reader) :
    let after := hosts.foldl
      (fun reader host => reader.modify host.1 (CybertwinNode.addLocalIp host.2)) reader
    after.ties = reader.ties ∧ after = { reader with nodes := after.nodes } := by
  induction hosts generalizing reader with
  | nil => exact ⟨rfl, rfl⟩
  | cons host rest ih =>
      obtain ⟨ties, frame⟩ := ih (reader.modify host.1 (CybertwinNode.addLocalIp host.2))
      refine ⟨ties.trans ?_, frame⟩
      exact ties_modify_same reader host.1 fun _ => rfl

theorem foldl_before {Item : Type} (host : Item → ℕ) (change : Reader → Item → Reader)
    (only : ∀ (reader : Reader) item id, id ≠ host item →
      (change reader item).nodes[id]? = reader.nodes[id]?)
    {items : List Item} {start : ℕ} (behind : ∀ item ∈ items, start ≤ host item) (reader : Reader)
    {id : ℕ} (inside : id < start) :
    (items.foldl change reader).nodes[id]? = reader.nodes[id]? := by
  induction items generalizing reader with
  | nil => rfl
  | cons item rest ih =>
      have apart : id ≠ host item := by
        have := behind item List.mem_cons_self
        omega
      rw [List.foldl_cons, ih fun other member => behind other (List.mem_cons_of_mem _ member)]
      exact only reader item id apart

theorem createLan_made {reader after : Reader} {cluster : EndCluster} {leader : ℕ}
    {hosts : List ℕ} (unique : (reader.interfaces.map Prod.fst).Nodup)
    (ran : reader.createLan cluster = some (after, leader, hosts)) :
    leader = reader.nodes.length ∧ hosts = List.range' reader.nodes.length cluster.numNodes ∧
      1 ≤ cluster.numNodes ∧ LanMade reader after cluster := by
  obtain ⟨⟨numbered, addresses⟩, assigned, ran⟩ := Option.bind_eq_some_iff.mp ran
  obtain ⟨first, head, ran⟩ := Option.bind_eq_some_iff.mp ran
  obtain ⟨rfl, rest⟩ := Prod.mk.inj (Option.some.inj ran)
  obtain ⟨rfl, rfl⟩ := Prod.mk.inj rest
  obtain ⟨nodes, pointed, frame⟩ := createNodes_made reader cluster.name cluster.numNodes
  change assignIPAddresses ((List.range cluster.numNodes).foldl (fun reader index =>
    (reader.createNode .endHost (hostName cluster.name index)).1) reader)
      (List.range' reader.nodes.length cluster.numNodes) cluster.localNetwork = _ at assigned
  generalize (List.range cluster.numNodes).foldl (fun reader index =>
    (reader.createNode .endHost (hostName cluster.name index)).1) reader = made
    at nodes pointed frame assigned
  have before : (made.interfaces.map Prod.fst).Nodup := by
    rw [frame]
    exact unique
  have met : ∀ rest, Addressable (numbered.interfaces.map Prod.fst) rest →
      Addressable (made.interfaces.map Prod.fst)
        ((cluster.localNetwork, cluster.numNodes) :: rest) := by
    intro rest later
    have back := Addressable.of_assign before assigned later
    rwa [List.length_range'] at back
  obtain ⟨grown, -, apart⟩ := assignIPAddresses_spec before assigned
  obtain ⟨ties, kept⟩ := addLocalIps_frame
    ((List.range' reader.nodes.length cluster.numNodes).zip addresses) numbered
  rw [List.head?_range'] at head
  split at head
  · cases head
  rename_i nonempty
  refine ⟨(Option.some.inj head).symm, rfl, by omega, ?_⟩
  · refine ⟨?_, ?_, ?_, ?_, ?_, ?_, ?_⟩
    · rw [kept, grown]
      exact apart
    · intro id inside
      rw [foldl_before Prod.fst _ (fun _ _ _ different => modify_other different)
        (fun host member => (List.mem_range'_1.mp (List.of_mem_zip member).1).1) numbered inside,
        grown]
      change made.nodes[id]? = _
      rw [nodes, List.getElem?_append_left inside]
    · rw [ties, grown]
      change made.nodes.map tie = _
      rw [nodes, List.map_append]
      rfl
    · rw [kept, grown]
      change reader.interfaces <+: made.interfaces ++ _
      rw [frame]
      exact List.prefix_append _ _
    · rw [kept, grown, frame]
    · rw [kept, grown]
      exact ⟨pointed.hosts, pointed.others⟩
    · intro rest later
      rw [kept] at later
      rw [frame] at met
      exact met rest later

theorem clusterDemands_cons {cluster : EndCluster} {link : Link} (rest : List EndCluster)
    (head : cluster.gateways.head? = some link) :
    clusterDemands (cluster :: rest) =
      (cluster.localNetwork, cluster.numNodes) :: (link.network, 2) :: clusterDemands rest := by
  rw [clusterDemands, List.flatMap_cons, head]
  rfl

/-- What a cluster needs of the nodes before it. -/
structure Gateway (reader : Reader) (cluster : EndCluster) (link : Link) (gateway : ℕ) : Prop where
  nonempty : 1 ≤ cluster.numNodes
  lan : cluster.networkType = .csma ∨ cluster.networkType = .wifi
  head : cluster.gateways.head? = some link
  other : link.target ≠ cluster.name
  found : ∃ info, reader.nodeInfoMap link.target = some info ∧ info.node = some gateway
  server : ∃ name, reader.labels[gateway]? = some (.edgeServer, name)

/-- What a cluster leaves: its hosts behind the other nodes, and the link from the first of them to
the gateway. -/
structure ClusterMade (before after : Reader) (cluster : EndCluster) (gateway : ℕ)
    (address : UInt32) : Prop where
  unique : (after.interfaces.map Prod.fst).Nodup
  ties : after.ties =
    before.ties ++ ((newHosts cluster).map tie).map (attachTie gateway address)
  interfaces : before.interfaces <+: after.interfaces
  link : ∃ router, [(router, before.nodes.length), (address, gateway)] <:+ after.interfaces
  nodeInfoMap : after.nodeInfoMap =
    Function.update before.nodeInfoMap cluster.name (some { name := cluster.name })
  pointed : Pointed before after cluster.name cluster.numNodes
  cores : ∀ (id : ℕ) (node : CybertwinNode), before.nodes[id]? = some node →
    node.kind = .coreServer → after.nodes[id]? = some node
  met : ∀ rest, Addressable (after.interfaces.map Prod.fst) rest →
    Addressable (before.interfaces.map Prod.fst) (clusterDemands [cluster] ++ rest)

theorem createNetwork_made {reader after : Reader} {cluster : EndCluster} {leader : ℕ}
    {hosts : List ℕ} (unique : (reader.interfaces.map Prod.fst).Nodup)
    (ran : reader.createNetwork cluster = some (after, leader, hosts)) :
    (cluster.networkType = .csma ∨ cluster.networkType = .wifi) ∧
      leader = reader.nodes.length ∧ hosts = List.range' reader.nodes.length cluster.numNodes ∧
      1 ≤ cluster.numNodes ∧ LanMade reader after cluster := by
  unfold createNetwork at ran
  split at ran
  · rename_i csma
    exact ⟨.inl csma, createLan_made unique ran⟩
  · rename_i wifi
    exact ⟨.inr wifi, createLan_made unique ran⟩
  all_goals cases ran

theorem newHosts_length (cluster : EndCluster) : (newHosts cluster).length = cluster.numNodes := by
  rw [newHosts, List.length_map, List.length_range]

theorem server_before {before : List (NodeKind × Name × List ℕ × Option UInt32)}
    {cluster : EndCluster} {gateway id : ℕ} {address : UInt32}
    {entry : NodeKind × Name × List ℕ × Option UInt32}
    (held : (before ++ ((newHosts cluster).map tie).map (attachTie gateway address))[id]? =
      some entry) (server : entry.1 = .edgeServer) : before[id]? = some entry := by
  by_cases inside : id < before.length
  · rwa [List.getElem?_append_left inside] at held
  · rw [List.getElem?_append_right (by omega)] at held
    obtain ⟨_, member, rfl⟩ := List.mem_map.mp (List.mem_of_getElem? held)
    obtain ⟨_, inside, rfl⟩ := List.mem_map.mp member
    obtain ⟨index, -, rfl⟩ := List.mem_map.mp inside
    cases server

theorem cast_before {reader : Reader} {cluster : EndCluster} {id gateway : ℕ} {address : UInt32}
    {before : List (NodeKind × Name × List ℕ × Option UInt32)} {node : CybertwinNode}
    (ties : reader.ties = before ++ ((newHosts cluster).map tie).map (attachTie gateway address))
    (cast : reader.cast? .edgeServer id = some node) :
    before[id]? = some (tie node) ∧ node.kind = .edgeServer := by
  obtain ⟨held, kind⟩ := Option.filter_eq_some_iff.mp cast
  have server : node.kind = .edgeServer := of_decide_eq_true kind
  have entry : reader.ties[id]? = some (tie node) := by
    rw [Reader.ties, List.getElem?_map, held]
    rfl
  rw [ties] at entry
  exact ⟨server_before entry server, server⟩

theorem LanMade.attach {before built : Reader} {cluster : EndCluster}
    (made : LanMade before built cluster) (gateway : ℕ) (address : UInt32)
    (interfaces : List (UInt32 × ℕ)) :
    ∃ nodes : List CybertwinNode, (∀ id < before.nodes.length, nodes[id]? = before.nodes[id]?) ∧
      Reader.ties { built with interfaces, nodes } =
        before.ties ++ ((newHosts cluster).map tie).map (attachTie gateway address) ∧
      (List.range' before.nodes.length cluster.numNodes).foldl (attachHost gateway address)
        { built with interfaces } = { built with interfaces, nodes } := by
  let linked : Reader := { built with interfaces }
  have ties : linked.ties = before.ties ++ (newHosts cluster).map tie := made.ties
  have attached := ties_attachHosts gateway address ((newHosts cluster).map tie) before.ties ties
  rw [ties_length, List.length_map, newHosts_length] at attached
  refine ⟨_, fun id inside => ?_, attached, attachHosts_frame gateway address _ linked⟩
  rw [foldl_before (fun host => host) _ (fun reader host id different => ?_)
    (fun host member => (List.mem_range'_1.mp member).1) linked inside]
  · exact made.nodes id inside
  · rw [attachHost, modify_other different, modify_other different]

theorem parseEndCluster_made {reader after : Reader} {cluster : EndCluster}
    (unique : (reader.interfaces.map Prod.fst).Nodup)
    (ran : parseEndCluster reader cluster = some after) :
    ∃ link gateway address, Gateway reader cluster link gateway ∧
      ClusterMade reader after cluster gateway address := by
  obtain ⟨⟨built, router, endNodes⟩, created, ran⟩ := Option.bind_eq_some_iff.mp ran
  obtain ⟨link, head, ran⟩ := Option.bind_eq_some_iff.mp ran
  obtain ⟨gatewayInfo, found, ran⟩ := Option.bind_eq_some_iff.mp ran
  obtain ⟨gateway, node, ran⟩ := Option.bind_eq_some_iff.mp ran
  obtain ⟨⟨linked, routerAddress, address⟩, made, ran⟩ := Option.bind_eq_some_iff.mp ran
  obtain ⟨edgeServer, cast, final⟩ := Option.bind_eq_some_iff.mp ran
  have known : ((Reader.interfaces { reader with
      nodeInfoMap := Function.update reader.nodeInfoMap cluster.name
        (some { name := cluster.name }) }).map Prod.fst).Nodup := unique
  obtain ⟨lan, rfl, rfl, nonempty, lanMade⟩ := createNetwork_made known created
  obtain ⟨rfl, apart, met⟩ := createP2PLink_interfaces lanMade.unique made
  obtain ⟨nodes, before, ties, attached⟩ := lanMade.attach gateway address
    (built.interfaces ++ [(routerAddress, reader.nodes.length), (address, gateway)])
  rw [attached] at cast final
  obtain ⟨held, server⟩ := cast_before ties cast
  change reader.ties[gateway]? = some (tie edgeServer) at held
  have map : built.nodeInfoMap =
      Function.update reader.nodeInfoMap cluster.name (some { name := cluster.name }) :=
    lanMade.nodeInfoMap
  have other : link.target ≠ cluster.name := by
    intro same
    rw [map, same, Function.update_self, Option.some.injEq] at found
    rw [← found] at node
    cases node
  rw [map, Function.update_of_ne other] at found
  refine ⟨link, gateway, address, ⟨nonempty, lan, head, other, ⟨gatewayInfo, found, node⟩, ?_⟩, ?_⟩
  · refine ⟨edgeServer.name, ?_⟩
    rw [labels_eq_ties, List.getElem?_map, held, ← server]
    rfl
  · rw [← Option.some.inj final]
    refine ⟨apart, ?_, ?_, ?_, map, ⟨lanMade.pointed.hosts, lanMade.pointed.others⟩, ?_, ?_⟩
    · refine Eq.trans ?_ ties
      exact ties_modify_same _ gateway fun _ => rfl
    · exact lanMade.interfaces.trans (List.prefix_append _ _)
    · exact ⟨routerAddress, List.suffix_append _ _⟩
    · intro id node there core
      have different : id ≠ gateway := by
        rintro rfl
        rw [Reader.ties, List.getElem?_map, there, Option.map_some, Option.some.injEq] at held
        rw [(Prod.mk.inj held).1, server] at core
        cases core
      rw [modify_other different]
      exact (before id (List.getElem?_eq_some_iff.mp there).1).trans there
    · intro rest later
      rw [clusterDemands_cons [] head]
      exact lanMade.met _ (met rest later)

theorem createLan_progress {reader : Reader} {cluster : EndCluster} {rest : List (Subnet × ℕ)}
    (nonempty : 1 ≤ cluster.numNodes)
    (addressable : Addressable (reader.interfaces.map Prod.fst)
      ((cluster.localNetwork, cluster.numNodes) :: rest)) :
    ∃ after leader hosts, reader.createLan cluster = some (after, leader, hosts) ∧
      Addressable (after.interfaces.map Prod.fst) rest := by
  obtain ⟨-, -, frame⟩ := createNodes_made reader cluster.name cluster.numNodes
  have interfaces : (reader.createHosts cluster).1.interfaces = reader.interfaces := by
    change Reader.interfaces (List.foldl _ _ _) = _
    rw [frame]
  have counted : (reader.createHosts cluster).2.length = cluster.numNodes := List.length_range'
  rw [← interfaces, ← counted] at addressable
  obtain ⟨numbered, addresses, assigned, -, -, later⟩ := Addressable.assign _ addressable
  have first : (reader.createHosts cluster).2.head? = some reader.nodes.length := by
    rw [createHosts, List.head?_range', if_neg (by omega)]
  obtain ⟨-, kept⟩ := addLocalIps_frame ((reader.createHosts cluster).2.zip addresses) numbered
  refine ⟨((reader.createHosts cluster).2.zip addresses).foldl
    (fun reader host => reader.modify host.1 (CybertwinNode.addLocalIp host.2)) numbered,
    reader.nodes.length, (reader.createHosts cluster).2, ?_, ?_⟩
  · simp only [createLan, assigned, first, Option.bind_eq_bind, Option.bind_some]
    rfl
  · rw [kept]
    exact later

theorem createNetwork_progress {reader : Reader} {cluster : EndCluster}
    {rest : List (Subnet × ℕ)} (nonempty : 1 ≤ cluster.numNodes)
    (lan : cluster.networkType = .csma ∨ cluster.networkType = .wifi)
    (addressable : Addressable (reader.interfaces.map Prod.fst)
      ((cluster.localNetwork, cluster.numNodes) :: rest)) :
    ∃ after leader hosts, reader.createNetwork cluster = some (after, leader, hosts) ∧
      Addressable (after.interfaces.map Prod.fst) rest := by
  have made := createLan_progress nonempty addressable
  unfold createNetwork
  rcases lan with csma | wifi
  · rw [csma]
    exact made
  · rw [wifi]
    exact made

theorem cast_of_ties {reader : Reader} {id : ℕ} {kind : NodeKind} {name : Name}
    {before more : List (NodeKind × Name × List ℕ × Option UInt32)}
    (ties : reader.ties = before ++ more)
    (label : (before.map fun entry => (entry.1, entry.2.1))[id]? = some (kind, name)) :
    ∃ node, reader.cast? kind id = some node := by
  rw [List.getElem?_map, Option.map_eq_some_iff] at label
  obtain ⟨entry, held, same⟩ := label
  have inside : id < before.length := (List.getElem?_eq_some_iff.mp held).1
  have entry : reader.ties[id]? = some entry := by
    rw [ties, List.getElem?_append_left inside, held]
  rw [Reader.ties, List.getElem?_map, Option.map_eq_some_iff] at entry
  obtain ⟨node, there, rfl⟩ := entry
  refine ⟨node, Option.filter_eq_some_iff.mpr ⟨there, ?_⟩⟩
  exact decide_eq_true (Prod.mk.inj same).1

theorem parseEndCluster_progress {reader : Reader} {cluster : EndCluster} {link : Link}
    {gateway : ℕ} {rest : List (Subnet × ℕ)} (needed : Gateway reader cluster link gateway)
    (addressable : Addressable (reader.interfaces.map Prod.fst)
      ((cluster.localNetwork, cluster.numNodes) :: (link.network, 2) :: rest)) :
    ∃ after, parseEndCluster reader cluster = some after ∧
      Addressable (after.interfaces.map Prod.fst) rest := by
  let known : Reader := { reader with
    nodeInfoMap :=
      Function.update reader.nodeInfoMap cluster.name (some { name := cluster.name }) }
  have based : Addressable (known.interfaces.map Prod.fst)
      ((cluster.localNetwork, cluster.numNodes) :: (link.network, 2) :: rest) := addressable
  obtain ⟨built, router, hosts, created, free⟩ := createNetwork_progress needed.nonempty needed.lan based
  obtain ⟨-, rfl, rfl, -, lanMade⟩ := createNetwork_made based.unique created
  obtain ⟨first, address, linked, made, grown, later⟩ :=
    createP2PLink_of_addressable known.nodes.length gateway free
  subst grown
  obtain ⟨nodes, -, ties, attached⟩ := lanMade.attach gateway address
    (built.interfaces ++ [(first, known.nodes.length), (address, gateway)])
  obtain ⟨name, server⟩ := needed.server
  rw [labels_eq_ties] at server
  obtain ⟨node, cast⟩ := cast_of_ties ties server
  obtain ⟨info, found, held⟩ := needed.found
  have lookup : built.nodeInfoMap link.target = some info := by
    rw [lanMade.nodeInfoMap]
    exact (Function.update_of_ne needed.other _ _).trans found
  refine ⟨Reader.modify { built with
    interfaces := built.interfaces ++ [(first, known.nodes.length), (address, gateway)], nodes }
      gateway (CybertwinNode.addGlobalIp address), ?_, later⟩
  unfold parseEndCluster
  change (known.createNetwork cluster).bind _ = _
  rw [created, Option.bind_some]
  simp only [needed.head, lookup, held, made, Option.bind_eq_bind, Option.bind_some]
  rw [attached]
  exact Option.bind_eq_some_iff.mpr ⟨node, cast, rfl⟩

/-- The hosts of a cluster, which begin at `start`: each of them is attached to the gateway, by the
address of the gateway on the link to the first of them, and is found by its name. -/
def Usable (reader : Reader) (start : ℕ) (cluster : EndCluster) : Prop :=
  ∃ link gateway router address, cluster.gateways.head? = some link ∧
    reader.labels[gateway]? = some (.edgeServer, link.target) ∧
    [(router, start), (address, gateway)] <:+: reader.interfaces ∧
    ∀ index < cluster.numNodes,
      (∃ host, reader.nodes[start + index]? = some host ∧ host.kind = .endHost ∧
        gateway ∈ host.parents ∧ host.upperNodeAddress = some address) ∧
      reader.nodeName2Ptr (hostName cluster.name index) = some (start + index)

/-- The hosts of each cluster stand behind those of the clusters before it. -/
def ClustersUsable (reader : Reader) : ℕ → List EndCluster → Prop
  | _, [] => True
  | start, cluster :: rest =>
      reader.Usable start cluster ∧ reader.ClustersUsable (start + cluster.numNodes) rest

def hostLabels (cluster : EndCluster) : List (NodeKind × Name) :=
  (List.range cluster.numNodes).map (hostLabel cluster.name)

theorem ClusterMade.labels {before after : Reader} {cluster : EndCluster} {gateway : ℕ}
    {address : UInt32} (made : ClusterMade before after cluster gateway address) :
    after.labels = before.labels ++ hostLabels cluster := by
  rw [labels_eq_ties, made.ties, List.map_append, ← labels_eq_ties, newHosts, hostLabels]
  simp only [List.map_map]
  rfl

theorem ClusterMade.kept {before after : Reader} {cluster : EndCluster} {gateway : ℕ}
    {address : UInt32} (made : ClusterMade before after cluster gateway address) :
    Kept before after := by
  refine ⟨made.cores, fun name there => ?_⟩
  by_cases host : ∃ index < cluster.numNodes, name = hostName cluster.name index
  · obtain ⟨index, small, rfl⟩ := host
    rw [made.pointed.hosts index small]
    rfl
  · rw [made.pointed.others name fun index small same => host ⟨index, small, same⟩]
    exact there

/-- The later clusters change nothing of what is there but the addresses of their gateways. -/
structure Extends (before after : Reader) (clusters : List EndCluster) : Prop where
  ties : before.ties <+: after.ties
  labels : after.labels = before.labels ++ clusters.flatMap hostLabels
  interfaces : before.interfaces <+: after.interfaces
  others : ∀ name, (∀ cluster ∈ clusters, ∀ index < cluster.numNodes,
    name ≠ hostName cluster.name index) → after.nodeName2Ptr name = before.nodeName2Ptr name
  kept : Kept before after

theorem Extends.refl (reader : Reader) : Extends reader reader [] :=
  ⟨List.prefix_refl _, (List.append_nil _).symm, List.prefix_refl _, fun _ _ => rfl,
    fun _ _ held _ => held, fun _ there => there⟩

theorem Extends.cons {first second third : Reader} {cluster : EndCluster}
    {rest : List EndCluster} {gateway : ℕ} {address : UInt32}
    (made : ClusterMade first second cluster gateway address) (later : Extends second third rest) :
    Extends first third (cluster :: rest) := by
  refine ⟨?_, ?_, made.interfaces.trans later.interfaces, ?_, made.kept.trans later.kept⟩
  · refine List.IsPrefix.trans ?_ later.ties
    rw [made.ties]
    exact List.prefix_append _ _
  · rw [later.labels, made.labels, List.append_assoc, List.flatMap_cons]
  · intro name apart
    rw [later.others name fun other member => apart other (List.mem_cons_of_mem _ member)]
    exact made.pointed.others name (apart cluster List.mem_cons_self)

theorem label_of_ties {before after : Reader} (grown : before.ties <+: after.ties) {id : ℕ}
    {label : NodeKind × Name} (held : before.labels[id]? = some label) :
    after.labels[id]? = some label := by
  rw [labels_eq_ties] at held ⊢
  obtain ⟨more, same⟩ := grown
  rw [← same, List.map_append, List.getElem?_append_left (List.getElem?_eq_some_iff.mp held).1]
  exact held

theorem ClusterMade.usable {before middle after : Reader} {cluster : EndCluster} {link : Link}
    {gateway : ℕ} {address : UInt32} {rest : List EndCluster}
    (made : ClusterMade before middle cluster gateway address)
    (head : cluster.gateways.head? = some link)
    (server : before.labels[gateway]? = some (.edgeServer, link.target))
    (later : Extends middle after rest) (apart : ∀ other ∈ rest, cluster.name ≠ other.name) :
    after.Usable before.nodes.length cluster := by
  obtain ⟨router, linked⟩ := made.link
  have first : before.ties <+: middle.ties := by
    rw [made.ties]
    exact List.prefix_append _ _
  refine ⟨link, gateway, router, address, head, ?_, ?_, ?_⟩
  · exact label_of_ties (first.trans later.ties) server
  · exact linked.isInfix.trans later.interfaces.isInfix
  · intro index small
    refine ⟨?_, ?_⟩
    · obtain ⟨more, same⟩ := later.ties
      have entry : after.ties[before.nodes.length + index]? =
          some (.endHost, hostName cluster.name index, [gateway], some address) := by
        rw [← same, made.ties, List.append_assoc, List.getElem?_append_right (by
            rw [ties_length]; omega), ties_length, Nat.add_sub_cancel_left,
          List.getElem?_append_left (by simpa [newHosts] using small), List.map_map, newHosts,
          List.map_map, List.getElem?_map, List.getElem?_range small]
        rfl
      rw [Reader.ties, List.getElem?_map, Option.map_eq_some_iff] at entry
      obtain ⟨host, held, tied⟩ := entry
      simp only [tie, Prod.mk.injEq] at tied
      exact ⟨host, held, tied.1, tied.2.2.1 ▸ List.mem_cons_self, tied.2.2.2⟩
    · rw [later.others]
      · exact made.pointed.hosts index small
      · intro other member index' _ same
        exact apart other member (hostName_inj.mp same).1

/-- The gateway of the cluster is declared as an edge server. -/
def Declares (reader : Reader) (cluster : EndCluster) : Prop :=
  ∃ link info gateway, cluster.gateways.head? = some link ∧
    reader.nodeInfoMap link.target = some info ∧ info.node = some gateway ∧
    reader.labels[gateway]? = some (.edgeServer, link.target)

/-- Clusters that do not get in the way of each other or of a gateway. -/
structure Separate (clusters : List EndCluster) : Prop where
  lan : ∀ cluster ∈ clusters, cluster.networkType = .csma ∨ cluster.networkType = .wifi
  names : (clusters.map EndCluster.name).Nodup
  own : ∀ cluster ∈ clusters, ∀ link, cluster.gateways.head? = some link →
    link.target ≠ cluster.name
  earlier : clusters.Pairwise fun before after => ∀ link, after.gateways.head? = some link →
    link.target ≠ before.name

theorem ClusterMade.length {before after : Reader} {cluster : EndCluster} {gateway : ℕ}
    {address : UInt32} (made : ClusterMade before after cluster gateway address) :
    after.nodes.length = before.nodes.length + cluster.numNodes := by
  rw [← ties_length, made.ties, List.length_append, ties_length, List.length_map, List.length_map,
    newHosts_length]

theorem ClusterMade.declares {before after : Reader} {cluster other : EndCluster} {gateway : ℕ}
    {address : UInt32} (made : ClusterMade before after cluster gateway address)
    (declares : before.Declares other)
    (apart : ∀ link, other.gateways.head? = some link → link.target ≠ cluster.name) :
    after.Declares other := by
  obtain ⟨link, info, server, head, found, held, label⟩ := declares
  refine ⟨link, info, server, head, ?_, held, ?_⟩
  · rw [made.nodeInfoMap, Function.update_of_ne (apart link head)]
    exact found
  · refine label_of_ties ?_ label
    rw [made.ties]
    exact List.prefix_append _ _

theorem parseAccessNetwork_progress {clusters : List EndCluster} {reader : Reader}
    {rest : List (Subnet × ℕ)}
    (addressable : Addressable (reader.interfaces.map Prod.fst) (clusterDemands clusters ++ rest))
    (nonempty : ∀ cluster ∈ clusters, 1 ≤ cluster.numNodes)
    (declares : ∀ cluster ∈ clusters, reader.Declares cluster) (separate : Separate clusters) :
    ∃ after, parseAccessNetwork reader clusters = some after ∧
      after.ClustersUsable reader.nodes.length clusters ∧ Extends reader after clusters := by
  induction clusters generalizing reader with
  | nil => exact ⟨reader, rfl, trivial, .refl reader⟩
  | cons cluster later ih =>
      obtain ⟨names, distinct⟩ := List.nodup_cons.mp separate.names
      obtain ⟨apart, earlier⟩ := List.pairwise_cons.mp separate.earlier
      obtain ⟨link, info, gateway, head, found, held, label⟩ := declares cluster List.mem_cons_self
      have needed : Gateway reader cluster link gateway :=
        ⟨nonempty cluster List.mem_cons_self, separate.lan cluster List.mem_cons_self, head,
          separate.own cluster List.mem_cons_self link head, ⟨info, found, held⟩, _, label⟩
      rw [clusterDemands_cons later head, List.cons_append, List.cons_append] at addressable
      obtain ⟨middle, ran, free⟩ :=
        parseEndCluster_progress needed addressable
      obtain ⟨link', gateway', address, needed', made⟩ :=
        parseEndCluster_made addressable.unique ran
      have same := needed'.head
      rw [head, Option.some.injEq] at same
      subst same
      obtain ⟨info', found', held'⟩ := needed'.found
      rw [found, Option.some.injEq] at found'
      rw [← found', held, Option.some.injEq] at held'
      subst held'
      obtain ⟨after, parsed, usable, grown⟩ := ih free
        (fun other member => nonempty other (List.mem_cons_of_mem _ member))
        (fun other member =>
          made.declares (declares other (List.mem_cons_of_mem _ member)) (apart other member))
        ⟨fun other member => separate.lan other (List.mem_cons_of_mem _ member), distinct,
          fun other member => separate.own other (List.mem_cons_of_mem _ member), earlier⟩
      refine ⟨after, ?_, ⟨?_, made.length ▸ usable⟩, .cons made grown⟩
      · rw [parseAccessNetwork, List.foldlM_cons, ran]
        exact parsed
      · refine made.usable head label grown fun other member same => names ?_
        rw [same]
        exact List.mem_map_of_mem member

theorem parseAccessNetwork_needs {clusters : List EndCluster} {reader after : Reader}
    (unique : (reader.interfaces.map Prod.fst).Nodup)
    (ran : parseAccessNetwork reader clusters = some after) :
    (∀ cluster ∈ clusters, ∃ link gateway, Gateway reader cluster link gateway) ∧
      (clusters.Pairwise fun before after => ∀ link, after.gateways.head? = some link →
        link.target ≠ before.name) ∧
      Addressable (reader.interfaces.map Prod.fst) (clusterDemands clusters) := by
  induction clusters generalizing reader with
  | nil =>
      refine ⟨fun _ member => absurd member List.not_mem_nil, List.Pairwise.nil, ?_, ?_⟩
      · exact fun _ member => absurd member List.not_mem_nil
      · simpa [clusterDemands] using unique
  | cons cluster later ih =>
      rw [parseAccessNetwork, List.foldlM_cons] at ran
      obtain ⟨middle, first, rest⟩ := Option.bind_eq_some_iff.mp ran
      obtain ⟨link, gateway, address, needed, made⟩ := parseEndCluster_made unique first
      obtain ⟨needs, earlier, addressable⟩ := ih made.unique rest
      have each : ∀ other ∈ later, ∃ link server, Gateway reader other link server ∧
          link.target ≠ cluster.name := by
        intro other member
        obtain ⟨link', server, wants⟩ := needs other member
        obtain ⟨info, found, held⟩ := wants.found
        have apart : link'.target ≠ cluster.name := by
          intro same
          rw [made.nodeInfoMap, same, Function.update_self, Option.some.injEq] at found
          rw [← found] at held
          cases held
        rw [made.nodeInfoMap, Function.update_of_ne apart] at found
        obtain ⟨name, label⟩ := wants.server
        refine ⟨link', server, ⟨wants.nonempty, wants.lan, wants.head, wants.other,
          ⟨info, found, held⟩, name, ?_⟩,
          apart⟩
        rw [labels_eq_ties, made.ties, List.getElem?_map, Option.map_eq_some_iff] at label
        obtain ⟨entry, there, same⟩ := label
        rw [labels_eq_ties, List.getElem?_map, server_before there (Prod.mk.inj same).1, ← same]
        rfl
      refine ⟨?_, List.pairwise_cons.mpr ⟨?_, earlier⟩, ?_⟩
      · intro other member
        rcases List.mem_cons.mp member with rfl | member
        · exact ⟨link, gateway, needed⟩
        · obtain ⟨link', server, wants, -⟩ := each other member
          exact ⟨link', server, wants⟩
      · intro other member link'' head
        obtain ⟨link', server, wants, apart⟩ := each other member
        rw [wants.head, Option.some.injEq] at head
        exact head ▸ apart
      · have met := made.met _ addressable
        rwa [clusterDemands, List.flatMap_singleton] at met

theorem ClustersUsable.pointer {reader : Reader} {clusters : List EndCluster} {start : ℕ}
    (usable : reader.ClustersUsable start clusters)
    (nonempty : ∀ cluster ∈ clusters, 1 ≤ cluster.numNodes) :
    ∀ cluster ∈ clusters, ∃ first, start ≤ first ∧
      reader.nodeName2Ptr (hostName cluster.name 0) = some first := by
  induction clusters generalizing start with
  | nil => exact fun _ member => absurd member List.not_mem_nil
  | cons cluster rest ih =>
      intro other member
      rcases List.mem_cons.mp member with rfl | member
      · obtain ⟨_, _, _, _, -, -, -, hosts⟩ := usable.1
        exact ⟨start, Nat.le_refl _, (hosts 0 (nonempty other List.mem_cons_self)).2⟩
      · obtain ⟨first, below, found⟩ := ih usable.2
          (fun other member => nonempty other (List.mem_cons_of_mem _ member)) other member
        exact ⟨first, by omega, found⟩

theorem ClustersUsable.names {reader : Reader} {clusters : List EndCluster} {start : ℕ}
    (usable : reader.ClustersUsable start clusters)
    (nonempty : ∀ cluster ∈ clusters, 1 ≤ cluster.numNodes) :
    (clusters.map EndCluster.name).Nodup := by
  induction clusters generalizing start with
  | nil => exact List.nodup_nil
  | cons cluster rest ih =>
      have some := nonempty cluster List.mem_cons_self
      have others : ∀ other ∈ rest, 1 ≤ other.numNodes :=
        fun other member => nonempty other (List.mem_cons_of_mem _ member)
      refine List.nodup_cons.mpr ⟨?_, ih usable.2 others⟩
      intro twice
      obtain ⟨other, member, same⟩ := List.mem_map.mp twice
      obtain ⟨first, below, found⟩ := usable.2.pointer others other member
      obtain ⟨_, _, _, _, -, -, -, hosts⟩ := usable.1
      have own := (hosts 0 some).2
      rw [← same, found, Option.some.injEq] at own
      omega

-- The reader after an edge server.
def oneServer : Reader := (createCloudNode {} .edgeServer ⟨[1], []⟩).1

def oneCluster (type : NetworkType) : EndCluster :=
  ⟨[2], 2, ⟨0x0A010000, 16⟩, type, [⟨[1], ⟨0x0A020000, 16⟩⟩]⟩

theorem oneServer_declares (type : NetworkType) :
    ∀ cluster ∈ [oneCluster type], oneServer.Declares cluster := by
  intro cluster member
  rw [List.mem_singleton.mp member]
  exact ⟨_, _, 0, rfl, rfl, rfl, rfl⟩

end Reader

end FISim.Topology
