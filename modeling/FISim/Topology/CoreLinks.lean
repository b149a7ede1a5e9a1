import FISim.Lib.FirstOnly
import FISim.Topology.Addresses
import FISim.Topology.Hierarchy
import Mathlib.Data.Sym.Sym2

/-!
The links between the core servers.  `m_links` holds the names of both ends of each
link written together, in both orders, so that a pair of nodes is taken for linked
when its names read like those of another pair.
-/

namespace FISim.Topology

open FirstOnly

/-- The unordered pairs of nodes of which one lists the other, as they are come to. -/
def listed (nodes : List CloudNode) : List (Sym2 Name) :=
  nodes.flatMap fun node => node.links.map fun link => s(node.name, link.target)

-- The texts under which `m_links` holds a pair.
def pairKeys (pair : Sym2 Name) : Set Name :=
  {key | ∃ one two, pair = s(one, two) ∧ key = one ++ two}

def Unambiguous (nodes : List CloudNode) : Prop :=
  ∀ one two three four, s(one, two) ∈ listed nodes → s(three, four) ∈ listed nodes →
    one ++ two = three ++ four → s(one, two) = s(three, four)

def coreLinks (nodes : List CloudNode) : List (Name × Link) :=
  nodes.flatMap fun node => node.links.map fun link => (node.name, link)

/-- The links that are made once `m_links` holds `seen`: of those that read alike, the first. -/
def madeLinks : List Name → List (Name × Link) → List (Name × Link)
  | _, [] => []
  | seen, (source, link) :: rest =>
      if source ++ link.target ∈ seen ∨ link.target ++ source ∈ seen then madeLinks seen rest
      else (source, link) ::
        madeLinks ((link.target ++ source) :: (source ++ link.target) :: seen) rest

def linkDemand (made : Name × Link) : Subnet × ℕ := (made.2.network, 2)

def coreDemands (nodes : List CloudNode) : List (Subnet × ℕ) :=
  (madeLinks [] (coreLinks nodes)).map linkDemand

theorem mem_pairKeys {one two key : Name} :
    key ∈ pairKeys s(one, two) ↔ key = one ++ two ∨ key = two ++ one := by
  constructor
  · rintro ⟨first, second, same, rfl⟩
    rw [Sym2.eq_iff] at same
    rcases same with ⟨rfl, rfl⟩ | ⟨rfl, rfl⟩
    · exact .inl rfl
    · exact .inr rfl
  · rintro (rfl | rfl)
    · exact ⟨one, two, rfl, rfl⟩
    · exact ⟨two, one, Sym2.eq_swap, rfl⟩

theorem pairKeys_nonempty (pair : Sym2 Name) : (pairKeys pair).Nonempty := by
  induction pair with
  | _ one two => exact ⟨one ++ two, one, two, rfl, rfl⟩

theorem unambiguous_iff_shares (nodes : List CloudNode) :
    Unambiguous nodes ↔ ∀ first ∈ listed nodes, ∀ second ∈ listed nodes,
      Shares pairKeys first second → first = second := by
  constructor
  · rintro unambiguous _ first _ second ⟨_, ⟨one, two, rfl, rfl⟩, ⟨three, four, rfl, same⟩⟩
    exact unambiguous one two three four first second same
  · intro unshared one two three four first second same
    exact unshared _ first _ second ⟨_, ⟨one, two, rfl, rfl⟩, ⟨three, four, rfl, same⟩⟩

def pairUp {Item : Type} : List Item → List (Item × Item)
  | first :: second :: rest => (first, second) :: pairUp rest
  | _ => []

theorem pairUp_append {Item : Type} {items : List Item} (even : Even items.length)
    (first second : Item) : pairUp (items ++ [first, second]) = pairUp items ++ [(first, second)] := by
  match items with
  | [] => rfl
  | [_] => exact absurd even (show ¬ Even 1 by decide)
  | one :: two :: rest =>
      have shorter : Even rest.length := by
        rw [List.length_cons, List.length_cons, Nat.add_assoc] at even
        exact (Nat.even_add.mp even).mpr even_two
      rw [List.cons_append, List.cons_append, pairUp, pairUp, pairUp_append shorter,
        List.cons_append]

namespace Reader

def nameOf (reader : Reader) (id : ℕ) : Name :=
  (reader.nodes[id]?.map CybertwinNode.name).getD []

/-- The names at the two ends of each link: a link gives an address to one end after the other. -/
def linkEnds (reader : Reader) : List (Sym2 Name) :=
  (pairUp reader.interfaces).map fun link => s(reader.nameOf link.1.2, reader.nameOf link.2.2)

/-- Each pair that is listed has one link, and no other pair has any. -/
def LinkedOnce (reader : Reader) (nodes : List CloudNode) : Prop :=
  ∀ pair, reader.linkEnds.count pair = if pair ∈ listed nodes then 1 else 0

theorem nameOf_of_label {reader : Reader} {id : ℕ} {kind : NodeKind} {name : Name}
    (label : reader.labels[id]? = some (kind, name)) : reader.nameOf id = name := by
  obtain ⟨node, held, -, rfl⟩ := node_of label
  rw [nameOf, held]
  rfl

theorem Same.nameOf {before after : Reader} (same : Same before after) (id : ℕ) :
    after.nameOf id = before.nameOf id := by
  have labels := congrArg (fun labels => labels[id]?.map Prod.snd) same.labels
  simp only [Reader.labels, List.getElem?_map, Option.map_map] at labels
  exact congrArg (Option.getD · []) labels

/-- `m_links` after the pairs in `visited`. -/
structure Recorded (reader : Reader) (visited : List (Sym2 Name)) : Prop where
  even : Even reader.interfaces.length
  owned : ∀ interface ∈ reader.interfaces, interface.2 < reader.nodes.length
  keys : ∀ key, key ∈ reader.links ↔ ∃ pair ∈ reader.linkEnds, key ∈ pairKeys pair
  taken : Taken pairKeys reader.linkEnds visited
  found : ∀ pair ∈ visited, ∀ name ∈ pair, (reader.nodeInfoMap name).isSome

theorem Recorded.linked_iff {reader : Reader} {visited : List (Sym2 Name)}
    (recorded : reader.Recorded visited) (one two : Name) :
    (one ++ two ∈ reader.links ∨ two ++ one ∈ reader.links) ↔
      ∃ old ∈ reader.linkEnds, Shares pairKeys old s(one, two) := by
  rw [recorded.keys, recorded.keys]
  constructor
  · rintro (⟨old, member, key⟩ | ⟨old, member, key⟩)
    · exact ⟨old, member, _, key, mem_pairKeys.mpr (.inl rfl)⟩
    · exact ⟨old, member, _, key, mem_pairKeys.mpr (.inr rfl)⟩
  · rintro ⟨old, member, key, first, second⟩
    rcases mem_pairKeys.mp second with rfl | rfl
    · exact .inl ⟨old, member, first⟩
    · exact .inr ⟨old, member, first⟩

theorem linkEnds_append {before after : Reader} {first second : UInt32 × ℕ}
    (same : Same before after) (even : Even before.interfaces.length)
    (grown : after.interfaces = before.interfaces ++ [first, second]) :
    after.linkEnds = before.linkEnds ++ [s(before.nameOf first.2, before.nameOf second.2)] := by
  rw [linkEnds, grown, pairUp_append even, List.map_append, linkEnds]
  simp only [same.nameOf, List.map_singleton]

theorem Recorded.link {before after : Reader} {visited : List (Sym2 Name)}
    {first second : UInt32 × ℕ} {one two : Name} (recorded : before.Recorded visited)
    (same : Same before after)
    (grown : after.interfaces = before.interfaces ++ [first, second])
    (source : before.nameOf first.2 = one) (target : before.nameOf second.2 = two)
    (inside : first.2 < before.nodes.length ∧ second.2 < before.nodes.length)
    (found : ∀ name ∈ s(one, two), (before.nodeInfoMap name).isSome)
    (links : after.links = (two ++ one) :: (one ++ two) :: before.links)
    (free : ¬ (one ++ two ∈ before.links ∨ two ++ one ∈ before.links)) :
    after.Recorded (visited ++ [s(one, two)]) := by
  have ends := linkEnds_append same recorded.even grown
  rw [source, target] at ends
  refine ⟨?_, ?_, ?_, ?_, ?_⟩
  · rw [grown, List.length_append]
    exact recorded.even.add even_two
  · intro interface member
    rw [same.length]
    rw [grown, List.mem_append, List.mem_pair] at member
    rcases member with old | rfl | rfl
    · exact recorded.owned interface old
    · exact inside.1
    · exact inside.2
  · intro key
    rw [links, ends]
    simp only [List.mem_cons, List.mem_append, List.not_mem_nil, or_false, recorded.keys, or_and_right,
      exists_or, exists_eq_left, mem_pairKeys]
    rw [or_left_comm, ← or_assoc, or_comm]
  · rw [ends]
    rw [recorded.linked_iff] at free
    exact recorded.taken.take (pairKeys_nonempty _) free
  · rw [same.nodeInfoMap]
    intro pair member
    rcases List.mem_append.mp member with old | new
    · exact recorded.found pair old
    · rw [List.mem_singleton.mp new]
      exact found

theorem Recorded.skip {reader : Reader} {visited : List (Sym2 Name)} {one two : Name}
    (recorded : reader.Recorded visited)
    (linked : one ++ two ∈ reader.links ∨ two ++ one ∈ reader.links)
    (found : ∀ name ∈ s(one, two), (reader.nodeInfoMap name).isSome) :
    reader.Recorded (visited ++ [s(one, two)]) := by
  refine ⟨recorded.even, recorded.owned, recorded.keys,
    recorded.taken.skip ((recorded.linked_iff one two).mp linked), ?_⟩
  intro pair member
  rcases List.mem_append.mp member with old | new
  · exact recorded.found pair old
  · rw [List.mem_singleton.mp new]
    exact found

theorem linkCoreServer_recorded {reader after : Reader} {names : List Name}
    {visited : List (Sym2 Name)} {nodeInfo : NodeInfo} {link : Link} {source : ℕ}
    (built : reader.Built names) (recorded : reader.Recorded visited)
    (held : nodeInfo.node = some source)
    (label : reader.labels[source]? = some (.coreServer, nodeInfo.name))
    (ran : linkCoreServer nodeInfo reader link = some after) :
    after.Recorded (visited ++ [s(nodeInfo.name, link.target)]) := by
  obtain ⟨same, -⟩ := linkCoreServer_spec built.sound ran
  obtain ⟨targetInfo, found, ran⟩ := Option.bind_eq_some_iff.mp ran
  obtain ⟨_, sourceHeld, ran⟩ := Option.bind_eq_some_iff.mp ran
  rw [held, Option.some.injEq] at sourceHeld
  subst sourceHeld
  obtain ⟨target, targetHeld, ran⟩ := Option.bind_eq_some_iff.mp ran
  obtain ⟨kind, -, targetLabel⟩ := built.mapped.infos link.target targetInfo target found targetHeld
  have known : ∀ name ∈ s(nodeInfo.name, link.target), (reader.nodeInfoMap name).isSome := by
    intro name member
    rcases Sym2.mem_iff.mp member with rfl | rfl
    · obtain ⟨info, _, there, -⟩ := built.declared.found nodeInfo.name
        (built.declared.named _ (List.mem_of_getElem? label))
      rw [there]
      rfl
    · rw [found]
      rfl
  have inside : ∀ {id : ℕ} {entry}, reader.labels[id]? = some entry → id < reader.nodes.length := by
    intro id entry held
    rw [← labels_length]
    exact (List.getElem?_eq_some_iff.mp held).1
  split at ran
  · rename_i linked
    rw [← Option.some.inj ran]
    exact recorded.skip linked known
  · rename_i free
    obtain ⟨⟨linked, first, second⟩, made, ran⟩ := Option.bind_eq_some_iff.mp ran
    obtain ⟨grown, -, -⟩ := createP2PLink_interfaces built.sound.unique made
    rw [grown] at ran
    rw [← Option.some.inj ran] at same ⊢
    exact recorded.link same rfl (nameOf_of_label label) (nameOf_of_label targetLabel)
      ⟨inside label, inside targetLabel⟩ known rfl free

theorem linkCoreServers_recorded {reader after : Reader} {names : List Name}
    {visited : List (Sym2 Name)} {nodeInfo : NodeInfo} {source : ℕ}
    (built : reader.Built names) (recorded : reader.Recorded visited)
    (held : nodeInfo.node = some source)
    (label : reader.labels[source]? = some (.coreServer, nodeInfo.name))
    (ran : linkCoreServers reader nodeInfo = some after) :
    after.Recorded (visited ++ nodeInfo.links.map fun link => s(nodeInfo.name, link.target)) := by
  unfold linkCoreServers at ran
  generalize nodeInfo.links = links at ran ⊢
  induction links generalizing reader visited with
  | nil =>
      rw [← Option.some.inj ran, List.map_nil, List.append_nil]
      exact recorded
  | cons link rest ih =>
      rw [List.foldlM_cons] at ran
      obtain ⟨middle, first, later⟩ := Option.bind_eq_some_iff.mp ran
      obtain ⟨same, sound⟩ := linkCoreServer_spec built.sound first
      have final := ih (built.same same sound)
        (linkCoreServer_recorded built recorded held label first) (by rw [same.labels, label]) later
      rwa [List.append_assoc] at final

/-- What the links in `visited` have made, and that every end of a link knows its address. -/
structure CoreMade (reader : Reader) (visited : List (Name × Link)) : Prop where
  links : ∀ later, madeLinks [] (visited ++ later) =
    madeLinks [] visited ++ madeLinks reader.links later
  ends : reader.linkEnds = (madeLinks [] visited).map fun made => s(made.1, made.2.target)
  met : ∀ rest, Addressable (reader.interfaces.map Prod.fst) rest →
    Addressable [] ((madeLinks [] visited).map linkDemand ++ rest)
  given : ∀ interface ∈ reader.interfaces, ∃ node, reader.nodes[interface.2]? = some node ∧
    interface.1 ∈ node.globalAddrList

theorem CoreMade.skip {reader : Reader} {visited : List (Name × Link)} {source : Name} {link : Link}
    (made : reader.CoreMade visited)
    (linked : source ++ link.target ∈ reader.links ∨ link.target ++ source ∈ reader.links) :
    reader.CoreMade (visited ++ [(source, link)]) := by
  have nothing : madeLinks [] (visited ++ [(source, link)]) = madeLinks [] visited := by
    rw [made.links, madeLinks, if_pos linked, madeLinks, List.append_nil]
  refine ⟨fun later => ?_, nothing ▸ made.ends, nothing ▸ made.met, made.given⟩
  rw [nothing, List.append_assoc, made.links, List.singleton_append, madeLinks, if_pos linked]

theorem given_modify {nodes : List CybertwinNode} {id other : ℕ} {address added : UInt32}
    (given : ∃ node, nodes[other]? = some node ∧ address ∈ node.globalAddrList) :
    ∃ node, (nodes.modify id (CybertwinNode.addGlobalIp added))[other]? = some node ∧
      address ∈ node.globalAddrList := by
  obtain ⟨node, held, member⟩ := given
  by_cases same : id = other
  · subst same
    refine ⟨CybertwinNode.addGlobalIp added node, by simp [held], ?_⟩
    exact List.mem_append_left _ member
  · exact ⟨node, by simp [same, held], member⟩

theorem given_addGlobalIp {nodes : List CybertwinNode} {id : ℕ} (added : UInt32)
    (inside : id < nodes.length) :
    ∃ node, (nodes.modify id (CybertwinNode.addGlobalIp added))[id]? = some node ∧
      added ∈ node.globalAddrList := by
  refine ⟨CybertwinNode.addGlobalIp added nodes[id], by simp [inside], ?_⟩
  exact List.mem_append_right _ List.mem_cons_self

theorem linkCoreServer_made {reader after : Reader} {names : List Name}
    {visited : List (Name × Link)} {nodeInfo : NodeInfo} {link : Link} {source : ℕ}
    (built : reader.Built names) (even : Even reader.interfaces.length)
    (made : reader.CoreMade visited) (held : nodeInfo.node = some source)
    (label : reader.labels[source]? = some (.coreServer, nodeInfo.name))
    (ran : linkCoreServer nodeInfo reader link = some after) :
    after.CoreMade (visited ++ [(nodeInfo.name, link)]) := by
  obtain ⟨targetInfo, found, ran⟩ := Option.bind_eq_some_iff.mp ran
  obtain ⟨_, sourceHeld, ran⟩ := Option.bind_eq_some_iff.mp ran
  rw [held, Option.some.injEq] at sourceHeld
  subst sourceHeld
  obtain ⟨target, targetHeld, ran⟩ := Option.bind_eq_some_iff.mp ran
  obtain ⟨kind, -, targetLabel⟩ := built.mapped.infos link.target targetInfo target found targetHeld
  split at ran
  · rename_i linked
    rw [← Option.some.inj ran]
    exact made.skip linked
  · rename_i free
    obtain ⟨⟨linked, first, second⟩, drawn, ran⟩ := Option.bind_eq_some_iff.mp ran
    obtain ⟨grown, -, met⟩ := createP2PLink_interfaces built.sound.unique drawn
    have more : madeLinks [] (visited ++ [(nodeInfo.name, link)]) =
        madeLinks [] visited ++ [(nodeInfo.name, link)] := by
      rw [made.links, madeLinks, if_neg free, madeLinks]
    have same : Same reader linked := by
      rw [grown]
      exact ⟨rfl, rfl, rfl, rfl⟩
    have all := (same.trans (same_modify _ source (keeps_addGlobalIp first))).trans
      (same_modify _ target (keeps_addGlobalIp second))
    have nodes : linked.nodes = reader.nodes := by rw [grown]
    have inside : ∀ {id : ℕ} {entry}, reader.labels[id]? = some entry →
        id < linked.nodes.length := by
      intro id entry there
      rw [nodes, ← labels_length]
      exact (List.getElem?_eq_some_iff.mp there).1
    rw [← Option.some.inj ran]
    refine ⟨fun later => ?_, ?_, fun rest later => ?_, fun interface member => ?_⟩
    · rw [more, List.append_assoc, made.links, List.singleton_append, madeLinks, if_neg free,
        List.append_assoc]
      change _ = madeLinks [] visited ++ ([_] ++ madeLinks (_ :: _ :: linked.links) later)
      rw [grown]
      rfl
    · have ends := linkEnds_append all even (congrArg Reader.interfaces grown)
      rw [nameOf_of_label label, nameOf_of_label targetLabel, made.ends] at ends
      rw [more, List.map_append]
      exact ends
    · rw [more, List.map_append, List.append_assoc]
      exact made.met _ (met rest later)
    · change interface ∈ linked.interfaces at member
      rw [grown, List.mem_append, List.mem_pair] at member
      change ∃ node, ((linked.nodes.modify source (CybertwinNode.addGlobalIp first)).modify target
        (CybertwinNode.addGlobalIp second))[interface.2]? = some node ∧ _
      rcases member with old | rfl | rfl
      · exact given_modify (given_modify (nodes ▸ made.given interface old))
      · exact given_modify (given_addGlobalIp first (inside label))
      · refine given_addGlobalIp second ?_
        rw [List.length_modify]
        exact inside targetLabel

theorem linkCoreServers_made {reader after : Reader} {names : List Name} {pairs : List (Sym2 Name)}
    {visited : List (Name × Link)} {nodeInfo : NodeInfo} {source : ℕ}
    (built : reader.Built names) (recorded : reader.Recorded pairs) (made : reader.CoreMade visited)
    (held : nodeInfo.node = some source)
    (label : reader.labels[source]? = some (.coreServer, nodeInfo.name))
    (ran : linkCoreServers reader nodeInfo = some after) :
    after.CoreMade (visited ++ nodeInfo.links.map fun link => (nodeInfo.name, link)) := by
  unfold linkCoreServers at ran
  generalize nodeInfo.links = links at ran ⊢
  induction links generalizing reader pairs visited with
  | nil =>
      rw [← Option.some.inj ran, List.map_nil, List.append_nil]
      exact made
  | cons link rest ih =>
      rw [List.foldlM_cons] at ran
      obtain ⟨middle, first, later⟩ := Option.bind_eq_some_iff.mp ran
      obtain ⟨same, sound⟩ := linkCoreServer_spec built.sound first
      have final := ih (built.same same sound)
        (linkCoreServer_recorded built recorded held label first)
        (linkCoreServer_made built recorded.even made held label first)
        (by rw [same.labels, label]) later
      rwa [List.append_assoc] at final

/-- What `m_coreNodesList` says of the nodes that were made. -/
structure CoreListed (reader : Reader) (nodes : List CloudNode) : Prop where
  same : reader.coreNodesList.map (fun info => (info.name, info.links)) =
    nodes.map fun node => (node.name, node.links)
  made : ∀ info ∈ reader.coreNodesList, ∃ id, info.node = some id ∧
    reader.labels[id]? = some (.coreServer, info.name)

theorem CoreListed.createCoreServer {reader : Reader} {nodes : List CloudNode}
    (listed : reader.CoreListed nodes) (node : CloudNode) :
    (reader.createCoreServer node).CoreListed (nodes ++ [node]) := by
  have labels : (reader.createCoreServer node).labels =
      reader.labels ++ [(.coreServer, node.name)] := labels_createNode reader .coreServer node.name
  have list : (reader.createCoreServer node).coreNodesList = reader.coreNodesList ++
      [{ name := node.name, node := some reader.nodes.length, links := node.links }] := rfl
  refine ⟨?_, ?_⟩
  · rw [list, List.map_append, List.map_append, listed.same]
    rfl
  · rw [list, labels]
    intro info member
    rcases List.mem_append.mp member with old | new
    · obtain ⟨id, held, label⟩ := listed.made info old
      exact ⟨id, held, label_append label⟩
    · rw [List.mem_singleton] at new
      subst new
      exact ⟨_, rfl, by rw [← labels_length, List.getElem?_concat_length]⟩

theorem createCoreServers_listed (nodes : List CloudNode) {reader : Reader} {done : List CloudNode}
    (listed : reader.CoreListed done) :
    (nodes.foldl createCoreServer reader).CoreListed (done ++ nodes) := by
  induction nodes generalizing reader done with
  | nil => rwa [List.append_nil]
  | cons node rest ih =>
      have later := ih (listed.createCoreServer node)
      rwa [List.append_assoc] at later

theorem interfaces_createCoreServers (nodes : List CloudNode) (reader : Reader) :
    (nodes.foldl createCoreServer reader).interfaces = reader.interfaces ∧
      (nodes.foldl createCoreServer reader).links = reader.links := by
  induction nodes generalizing reader with
  | nil => exact ⟨rfl, rfl⟩
  | cons node rest ih => exact ih (reader.createCoreServer node)

theorem linkAllCores_recorded {infos : List NodeInfo} {reader after : Reader} {names : List Name}
    {visited : List (Sym2 Name)} (built : reader.Built names) (recorded : reader.Recorded visited)
    (made : ∀ info ∈ infos, ∃ id, info.node = some id ∧
      reader.labels[id]? = some (.coreServer, info.name))
    (ran : infos.foldlM linkCoreServers reader = some after) :
    after.Recorded (visited ++
      infos.flatMap fun info => info.links.map fun link => s(info.name, link.target)) := by
  induction infos generalizing reader visited with
  | nil =>
      rw [← Option.some.inj ran, List.flatMap_nil, List.append_nil]
      exact recorded
  | cons info rest ih =>
      rw [List.foldlM_cons] at ran
      obtain ⟨middle, first, later⟩ := Option.bind_eq_some_iff.mp ran
      obtain ⟨id, held, label⟩ := made info List.mem_cons_self
      obtain ⟨same, sound⟩ := linkCoreServers_spec built.sound first
      have final := ih (built.same same sound)
        (linkCoreServers_recorded built recorded held label first) (fun other member => by
          rw [same.labels]
          exact made other (List.mem_cons_of_mem _ member)) later
      rwa [List.append_assoc] at final

theorem linkAllCores_made {infos : List NodeInfo} {reader after : Reader} {names : List Name}
    {pairs : List (Sym2 Name)} {visited : List (Name × Link)} (built : reader.Built names)
    (recorded : reader.Recorded pairs) (made : reader.CoreMade visited)
    (nodes : ∀ info ∈ infos, ∃ id, info.node = some id ∧
      reader.labels[id]? = some (.coreServer, info.name))
    (ran : infos.foldlM linkCoreServers reader = some after) :
    after.CoreMade (visited ++
      infos.flatMap fun info => info.links.map fun link => (info.name, link)) := by
  induction infos generalizing reader pairs visited with
  | nil =>
      rw [← Option.some.inj ran, List.flatMap_nil, List.append_nil]
      exact made
  | cons info rest ih =>
      rw [List.foldlM_cons] at ran
      obtain ⟨middle, first, later⟩ := Option.bind_eq_some_iff.mp ran
      obtain ⟨id, held, label⟩ := nodes info List.mem_cons_self
      obtain ⟨same, sound⟩ := linkCoreServers_spec built.sound first
      have final := ih (built.same same sound)
        (linkCoreServers_recorded built recorded held label first)
        (linkCoreServers_made built recorded made held label first) (fun other member => by
          rw [same.labels]
          exact nodes other (List.mem_cons_of_mem _ member)) later
      rwa [List.append_assoc] at final

theorem CoreListed.flatMap {reader : Reader} {nodes : List CloudNode}
    (held : reader.CoreListed nodes) {Item : Type} (each : Name → Link → Item) :
    (reader.coreNodesList.flatMap fun info => info.links.map (each info.name)) =
      nodes.flatMap fun node => node.links.map (each node.name) := by
  have same := congrArg
    (List.flatMap fun entry : Name × List Link => entry.2.map (each entry.1)) held.same
  rwa [List.flatMap_map, List.flatMap_map] at same

theorem createCoreServers_coreListed (nodes : List CloudNode) :
    (nodes.foldl createCoreServer {}).CoreListed nodes := by
  have empty : ({} : Reader).CoreListed [] :=
    ⟨rfl, fun _ member => absurd member List.not_mem_nil⟩
  exact createCoreServers_listed nodes empty

theorem createCoreServers_start (nodes : List CloudNode) :
    (nodes.foldl createCoreServer {}).Recorded [] ∧
      (nodes.foldl createCoreServer {}).CoreMade [] := by
  obtain ⟨interfaces, links⟩ := interfaces_createCoreServers nodes {}
  have ends : (nodes.foldl createCoreServer {}).linkEnds = [] := by
    rw [linkEnds, interfaces]
    rfl
  constructor
  · refine ⟨?_, ?_, ?_, ?_, fun _ member => absurd member List.not_mem_nil⟩
    · rw [interfaces]
      exact Even.zero
    · rw [interfaces]
      exact fun _ member => absurd member List.not_mem_nil
    · intro key
      rw [links, ends]
      exact iff_of_false List.not_mem_nil fun ⟨_, member, _⟩ => List.not_mem_nil member
    · rw [ends]
      exact .nil
  · refine ⟨fun later => ?_, ends, fun rest later => ?_, ?_⟩
    · rw [links]
      rfl
    · rwa [interfaces] at later
    · rw [interfaces]
      exact fun _ member => absurd member List.not_mem_nil

theorem parseCoreCloud_recorded {nodes : List CloudNode} {reader : Reader}
    (ran : parseCoreCloud {} nodes = some reader) :
    reader.Recorded (listed nodes) ∧ reader.CoreMade (coreLinks nodes) := by
  obtain ⟨built, -⟩ := createCoreServers_built nodes
  have held := createCoreServers_coreListed nodes
  obtain ⟨recorded, made⟩ := createCoreServers_start nodes
  constructor
  · have final := linkAllCores_recorded built recorded held.made ran
    rwa [List.nil_append, held.flatMap fun name link => s(name, link.target)] at final
  · have final := linkAllCores_made built recorded made held.made ran
    rwa [List.nil_append, held.flatMap fun name link => (name, link)] at final

theorem linkCoreServer_progress {reader : Reader} {names : List Name} {nodeInfo : NodeInfo}
    {link : Link} {source : ℕ} {later : List (Name × Link)} {rest : List (Subnet × ℕ)}
    (built : reader.Built names) (known : link.target ∈ names) (held : nodeInfo.node = some source)
    (addressable : Addressable (reader.interfaces.map Prod.fst)
      ((madeLinks reader.links ((nodeInfo.name, link) :: later)).map linkDemand ++ rest)) :
    ∃ after, linkCoreServer nodeInfo reader link = some after ∧ after.Built names ∧
      Addressable (after.interfaces.map Prod.fst)
        ((madeLinks after.links later).map linkDemand ++ rest) := by
  obtain ⟨targetInfo, target, found, targetHeld⟩ := built.declared.found link.target known
  have linked : ∃ after, linkCoreServer nodeInfo reader link = some after ∧
      Addressable (after.interfaces.map Prod.fst)
        ((madeLinks after.links later).map linkDemand ++ rest) := by
    simp only [linkCoreServer, found, held, targetHeld, Option.bind_eq_bind, Option.bind_some]
    rw [madeLinks] at addressable
    split
    · rename_i linked
      rw [if_pos linked] at addressable
      exact ⟨reader, rfl, addressable⟩
    · rename_i free
      rw [if_neg free, List.map_cons, List.cons_append] at addressable
      obtain ⟨first, second, after, made, grown, left⟩ :=
        createP2PLink_of_addressable source target addressable
      rw [made]
      refine ⟨_, rfl, ?_⟩
      change Addressable (after.interfaces.map Prod.fst)
        ((madeLinks (_ :: _ :: after.links) later).map linkDemand ++ rest)
      rwa [show after.links = reader.links by rw [grown]]
  obtain ⟨after, ran, left⟩ := linked
  obtain ⟨same, sound⟩ := linkCoreServer_spec built.sound ran
  exact ⟨after, ran, built.same same sound, left⟩

theorem linkCoreServers_progress {reader : Reader} {names : List Name} {nodeInfo : NodeInfo}
    {source : ℕ} {later : List (Name × Link)} {rest : List (Subnet × ℕ)}
    (built : reader.Built names) (known : ∀ link ∈ nodeInfo.links, link.target ∈ names)
    (held : nodeInfo.node = some source)
    (addressable : Addressable (reader.interfaces.map Prod.fst) ((madeLinks reader.links
      ((nodeInfo.links.map fun link => (nodeInfo.name, link)) ++ later)).map linkDemand ++ rest)) :
    ∃ after, linkCoreServers reader nodeInfo = some after ∧ after.Built names ∧
      Addressable (after.interfaces.map Prod.fst)
        ((madeLinks after.links later).map linkDemand ++ rest) := by
  obtain ⟨after, ran, kept, -, left⟩ := Transition.exists_run
    (fun (reader : Reader) links => reader.Built names ∧
      (∀ link ∈ links, link.target ∈ names) ∧ Addressable (reader.interfaces.map Prod.fst)
        ((madeLinks reader.links ((links.map fun link => (nodeInfo.name, link)) ++ later)).map
          linkDemand ++ rest))
    (fun reader link links ⟨built, targets, addressable⟩ => by
      obtain ⟨after, ran, built, left⟩ :=
        linkCoreServer_progress built (targets link List.mem_cons_self) held addressable
      exact ⟨after, ran, built, fun other member => targets other (List.mem_cons_of_mem _ member),
        left⟩) ⟨built, known, addressable⟩
  exact ⟨after, ran, kept, left⟩

theorem parseCoreCloud_progress {nodes : List CloudNode} {rest : List (Subnet × ℕ)}
    (known : ∀ node ∈ nodes, ∀ link ∈ node.links, link.target ∈ nodes.map CloudNode.name)
    (addressable : Addressable [] (coreDemands nodes ++ rest)) :
    ∃ reader, parseCoreCloud {} nodes = some reader ∧
      Addressable (reader.interfaces.map Prod.fst) rest := by
  obtain ⟨built, -⟩ := createCoreServers_built nodes
  have held := createCoreServers_coreListed nodes
  obtain ⟨interfaces, links⟩ := interfaces_createCoreServers nodes {}
  have targets : ∀ info ∈ (nodes.foldl createCoreServer {}).coreNodesList, ∀ link ∈ info.links,
      link.target ∈ nodes.map CloudNode.name := by
    intro info member link inside
    have entry := List.mem_map_of_mem (f := fun info : NodeInfo => (info.name, info.links)) member
    rw [held.same] at entry
    obtain ⟨node, declared, same⟩ := List.mem_map.mp entry
    rw [← (Prod.mk.inj same).2] at inside
    exact known node declared link inside
  have start : Addressable ((nodes.foldl createCoreServer {}).interfaces.map Prod.fst)
      ((madeLinks (nodes.foldl createCoreServer {}).links
        ((nodes.foldl createCoreServer {}).coreNodesList.flatMap fun info =>
          info.links.map fun link => (info.name, link))).map linkDemand ++ rest) := by
    rw [interfaces, links, held.flatMap fun name link => (name, link)]
    exact addressable
  obtain ⟨after, ran, -, -, left⟩ := Transition.exists_run
    (fun (reader : Reader) infos => reader.Built (nodes.map CloudNode.name) ∧
      (∀ info ∈ infos, (∃ id, info.node = some id) ∧
        ∀ link ∈ info.links, link.target ∈ nodes.map CloudNode.name) ∧
      Addressable (reader.interfaces.map Prod.fst) ((madeLinks reader.links
        (infos.flatMap fun info => info.links.map fun link => (info.name, link))).map
          linkDemand ++ rest))
    (fun reader info infos ⟨built, made, addressable⟩ => by
      obtain ⟨⟨id, node⟩, targets⟩ := made info List.mem_cons_self
      obtain ⟨after, ran, built, left⟩ := linkCoreServers_progress built targets node addressable
      exact ⟨after, ran, built, fun other member => made other (List.mem_cons_of_mem _ member),
        left⟩)
    ⟨built, fun info member => ⟨(held.made info member).imp fun _ => And.left,
      targets info member⟩, start⟩
  exact ⟨after, ran, left⟩

/-- The core cloud has one link for each pair that is listed, and no other, if and only if no two
of these pairs read alike.  The links are counted by the names of their ends. -/
theorem parseCoreCloud_linkedOnce_iff (nodes : List CloudNode) :
    ((∀ node ∈ nodes, ∀ link ∈ node.links, link.target ∈ nodes.map CloudNode.name) →
      Addressable [] (coreDemands nodes) → (parseCoreCloud {} nodes).isSome) ∧
    ∀ reader, parseCoreCloud {} nodes = some reader →
      (reader.LinkedOnce nodes ↔ Unambiguous nodes) := by
  constructor
  · intro known addressable
    rw [← List.append_nil (coreDemands nodes)] at addressable
    obtain ⟨reader, ran, -⟩ := parseCoreCloud_progress known addressable
    rw [ran]
    rfl
  · intro reader ran
    rw [unambiguous_iff_shares]
    exact (parseCoreCloud_recorded ran).1.taken.count_iff pairKeys_nonempty

def bothWays : List CloudNode :=
  [⟨[1], [⟨[2], ⟨0x0A000000, 8⟩⟩]⟩, ⟨[2], [⟨[1], ⟨0x14000000, 8⟩⟩]⟩]

theorem bothWays_linkedOnce :
    ∃ reader, parseCoreCloud {} bothWays = some reader ∧ reader.LinkedOnce bothWays := by
  obtain ⟨returns, counts⟩ := parseCoreCloud_linkedOnce_iff bothWays
  obtain ⟨reader, ran⟩ := Option.isSome_iff_exists.mp
    (returns (by decide) ⟨by decide, by decide⟩)
  refine ⟨reader, ran, (counts reader ran).mpr ?_⟩
  intro one two three four first second _
  have only : ∀ pair ∈ listed bothWays, pair = s([1], [2]) := by decide
  rw [only _ first, only _ second]

-- The names a, bc, ab and c.
def alike : List CloudNode :=
  [⟨[97], [⟨[98, 99], ⟨0x0A000000, 8⟩⟩]⟩, ⟨[98, 99], []⟩,
    ⟨[97, 98], [⟨[99], ⟨0x14000000, 8⟩⟩]⟩, ⟨[99], []⟩]

/-- The second link is never made. -/
theorem alike_notLinkedOnce :
    (alike.map CloudNode.name).Nodup ∧
      (∀ node ∈ alike, ∀ link ∈ node.links, link.target ∈ alike.map CloudNode.name) ∧
      ∃ reader, parseCoreCloud {} alike = some reader ∧ ¬ reader.LinkedOnce alike := by
  refine ⟨by decide, by decide, ?_⟩
  have ends : (parseCoreCloud {} alike).map linkEnds = some [s([97], [98, 99])] := by decide
  obtain ⟨reader, ran, made⟩ := Option.map_eq_some_iff.mp ends
  refine ⟨reader, ran, fun once => ?_⟩
  have count := once s([97, 98], [99])
  rw [made] at count
  exact absurd count (by decide)

end Reader

end FISim.Topology
