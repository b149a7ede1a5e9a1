import FISim.ContentCentric.Protocol
import FISim.Lib.Transition

/-!
What the consumers receive.  A consumer that is the first of its name on its node
gets one copy of the content for each of its calls; a later one gets nothing, as
the search for a consumer ends at the first.
-/

namespace FISim.ContentCentric

open Transition

/-- The routes and names that the protocol is given. -/
structure Setup.Resolved {Node : Type} (setup : Setup Node) : Prop where
  home : ∀ node, setup.route (setup.address node) = some node
  nonzero : ∀ node, setup.address node ≠ 0
  names : ∀ node, ∀ name ∈ setup.consumers node, name.length < 20 ∧ 0 ∉ name

theorem contentBlocks_flatten (content : List UInt8) :
    (contentBlocks content).flatten = content := by
  induction content using contentBlocks.induct with
  | case1 content short => rw [contentBlocks, if_pos short, List.flatten_singleton]
  | case2 content long ih =>
      rw [contentBlocks, if_neg long, List.flatten_cons, ih, List.take_append_drop]

theorem eraseNull_padded {name : ContentName} (clean : 0 ∉ name) {count : ℕ} (room : 0 < count) :
    eraseNull (name ++ List.replicate count 0) = some name := by
  obtain ⟨count, rfl⟩ : ∃ more, count = more + 1 := ⟨count - 1, by omega⟩
  unfold eraseNull
  rw [if_pos (by simp), List.takeWhile_append_of_pos]
  · simp [List.replicate_succ]
  · intro character member
    simp only [ne_eq, decide_eq_true_eq]
    rintro rfl
    exact clean member

-- What a receiver takes a packet for: its type, name and payload.
def readPacket (packet : Packet) : Option (UInt8 × ContentName × Packet) := do
  let (header, payload) ← CCNHeader.deserialize packet
  let name ← eraseNull header.contentName
  return (header.type, name, payload)

theorem readPacket_written {name : ContentName} {type : UInt8} {header : Packet}
    (short : name.length < 20) (clean : 0 ∉ name)
    (written : CCNHeader.serialize { contentName := name, type } = some header)
    (payload : Packet) : readPacket (header ++ payload) = some (type, name, payload) := by
  rw [readPacket, CCNHeader.reads written payload]
  simp only [Option.bind_eq_bind, Option.bind_some]
  rw [eraseNull_padded clean (show 0 < CCNHeader.nameLength - name.length by
    unfold CCNHeader.nameLength
    omega)]
  rfl

theorem serialize_short {name : ContentName} (short : name.length < 20) (type : UInt8) :
    ∃ header, CCNHeader.serialize { contentName := name, type } = some header := by
  refine ⟨_, if_pos ?_⟩
  change name.length ≤ 20
  omega

def Setup.hostOf {Node : Type} (setup : Setup Node) (node : Node) (name : ContentName) :
    Option Node :=
  let destAddress := getHostAddressFromContentName (setup.contentPrefixToHostAddress node) name
  if destAddress = 0 then none else setup.route destAddress

/-- The blocks that a host answers an interest in the name with. -/
def Setup.blocksAt {Node : Type} (setup : Setup Node) (host : Node) (name : ContentName) :
    List Packet :=
  match (setup.producers host).find? fun producer => producer.contentName = name with
  | none => []
  | some producer =>
      match producer.contentFile with
      | none => []
      | some content => contentBlocks content

namespace Network

variable {Node : Type} {setup : Setup Node}

theorem sendInterest_spec {name : ContentName} (short : name.length < 20) (clean : 0 ∉ name)
    (net : Network Node) (node : Node) :
    ∃ packet, readPacket packet = some (CCNHeader.interest, name, []) ∧
      net.sendInterest setup node name = some { net with
        inFlight := net.inFlight ++ (setup.hostOf node name).toList.map fun receiver =>
          ⟨node, receiver, setup.address node, packet⟩ } := by
  obtain ⟨packet, written⟩ := serialize_short short CCNHeader.interest
  refine ⟨packet, ?_, ?_⟩
  · have read := readPacket_written short clean written []
    rwa [List.append_nil] at read
  · rw [sendInterest_eq]
    simp only [CCNL4Protocol.sendInterest, written, Option.bind_eq_bind, Option.bind_some,
      Option.pure_def, Option.map_some, Option.some.injEq, List.append_nil, protocolAt]
    unfold Setup.hostOf
    simp only []
    split
    · simp [handDown]
    · unfold handDown send
      dsimp only
      split
      · rename_i missing
        simp [missing]
      · rename_i receiver found
        simp [found]

variable [DecidableEq Node]

theorem sendData_spec {net : Network Node} {node asker : Node} {name : ContentName}
    (resolved : setup.Resolved) (short : name.length < 20) (clean : 0 ∉ name)
    (pending : net.pendingInterestTable node name = some (setup.address asker))
    (payload : Packet) :
    ∃ packet, readPacket packet = some (CCNHeader.data, name, payload) ∧
      net.sendData setup node payload name = some { net with
        log := net.log ++ [.sentData node (setup.address asker) name]
        inFlight := net.inFlight ++ [⟨node, asker, setup.address node, packet⟩] } := by
  obtain ⟨header, written⟩ := serialize_short short CCNHeader.data
  refine ⟨header ++ payload, readPacket_written short clean written payload, ?_⟩
  have same : Function.update net.pendingInterestTable node
      (Function.update (net.pendingInterestTable node) name (some (setup.address asker))) =
        net.pendingInterestTable := by
    rw [← pending, Function.update_eq_self, Function.update_eq_self]
  rw [sendData_eq]
  simp only [CCNL4Protocol.sendData, written, Option.bind_eq_bind, Option.bind_some,
    Option.pure_def, Option.map_some, protocolAt, pending, Option.getD_some,
    if_neg (resolved.nonzero asker), handDown, send, observe, resolved.home asker, same]

theorem sendBlocks_spec (net : Network Node) {node asker : Node} {name : ContentName}
    (resolved : setup.Resolved) (short : name.length < 20) (clean : 0 ∉ name)
    (pending : net.pendingInterestTable node name = some (setup.address asker))
    (blocks : List Packet) :
    ∃ packets : List Packet,
      packets.map readPacket = blocks.map (fun block => some (CCNHeader.data, name, block)) ∧
      blocks.foldlM (fun net payload => net.sendData setup node payload name) net =
        some { net with
          log := net.log ++
            List.replicate blocks.length (.sentData node (setup.address asker) name)
          inFlight := net.inFlight ++
            packets.map fun packet => ⟨node, asker, setup.address node, packet⟩ } := by
  induction blocks generalizing net with
  | nil => exact ⟨[], rfl, by simp⟩
  | cons block rest ih =>
      obtain ⟨packet, read, first⟩ := sendData_spec resolved short clean pending block
      obtain ⟨packets, reads, later⟩ := ih { net with
        log := net.log ++ [.sentData node (setup.address asker) name]
        inFlight := net.inFlight ++ [⟨node, asker, setup.address node, packet⟩] } pending
      refine ⟨packet :: packets, ?_, ?_⟩
      · rw [List.map_cons, List.map_cons, read, reads]
      · rw [List.foldlM_cons, first, Option.bind_eq_bind, Option.bind_some, later]
        simp [List.replicate_succ]

/-- The interest is answered with the blocks of the content that its name has at the node. -/
theorem receive_interest {node asker : Node} {name : ContentName} {packet payload : Packet}
    (resolved : setup.Resolved) (short : name.length < 20) (clean : 0 ∉ name)
    (read : readPacket packet = some (CCNHeader.interest, name, payload)) (net : Network Node) :
    ∃ packets : List Packet,
      packets.map readPacket =
        (setup.blocksAt node name).map (fun block => some (CCNHeader.data, name, block)) ∧
      net.receive setup node (setup.address asker) packet = some {
        pendingInterestTable := Function.update net.pendingInterestTable node
          (Function.update (net.pendingInterestTable node) name (some (setup.address asker)))
        log := net.log ++ List.replicate (setup.blocksAt node name).length
          (.sentData node (setup.address asker) name)
        inFlight := net.inFlight ++
          packets.map fun packet => ⟨node, asker, setup.address node, packet⟩ } := by
  obtain ⟨⟨header, rest⟩, head, read⟩ := Option.bind_eq_some_iff.mp read
  obtain ⟨found, erased, read⟩ := Option.bind_eq_some_iff.mp read
  obtain ⟨kind, rfl, rfl⟩ : header.type = CCNHeader.interest ∧ found = name ∧ rest = payload := by
    simpa using read
  have pending : Function.update net.pendingInterestTable node (Function.update
      (net.pendingInterestTable node) found (some (setup.address asker))) node found =
        some (setup.address asker) := by
    simp
  simp only [receive, head, Option.bind_eq_bind, Option.bind_some, kind, ↓reduceIte,
    handleInterestPacket, erased, Setup.blocksAt]
  cases served : (setup.producers node).find? fun producer => producer.contentName = found with
  | none => exact ⟨[], rfl, by simp⟩
  | some producer =>
      have named : producer.contentName = found := by
        simpa using List.find?_some served
      simp only [sendContentResponse]
      cases opened : producer.contentFile with
      | none => exact ⟨[], rfl, by simp⟩
      | some content =>
          rw [named]
          exact sendBlocks_spec { net with pendingInterestTable := _ } resolved short clean
            pending (contentBlocks content)

theorem receive_data {node : Node} {name : ContentName} {packet payload : Packet}
    (read : readPacket packet = some (CCNHeader.data, name, payload)) (net : Network Node)
    (source : UInt32) :
    net.receive setup node source packet = some { net with
      log := net.log ++ (((setup.consumers node).findIdx? fun held => held = name).toList.map
        fun consumer => .delivered node consumer name payload) } := by
  obtain ⟨⟨header, rest⟩, head, read⟩ := Option.bind_eq_some_iff.mp read
  obtain ⟨found, erased, read⟩ := Option.bind_eq_some_iff.mp read
  obtain ⟨kind, rfl, rfl⟩ : header.type = CCNHeader.data ∧ found = name ∧ rest = payload := by
    simpa using read
  have other : CCNHeader.data ≠ CCNHeader.interest := by decide
  simp only [receive, head, Option.bind_eq_bind, Option.bind_some, kind, if_neg other, ↓reduceIte,
    handleDataPacket, erased, observe]
  split
  · rename_i consumer first
    simp [first]
  · rename_i missing
    simp [missing]

def Asked (setup : Setup Node) (net : Network Node) (node : Node) (name : ContentName) : Prop :=
  ∃ consumer, (setup.consumers node)[consumer]? = some name ∧ .asked node consumer ∈ net.log

structure Interest (setup : Setup Node) (net : Network Node) (datagram : Datagram Node)
    (name : ContentName) : Prop where
  read : readPacket datagram.packet = some (CCNHeader.interest, name, [])
  routed : setup.hostOf datagram.sender name = some datagram.receiver
  source : datagram.source = setup.address datagram.sender
  asked : net.Asked setup datagram.sender name

structure Data (setup : Setup Node) (datagram : Datagram Node) (name : ContentName)
    (payload : Packet) : Prop where
  read : readPacket datagram.packet = some (CCNHeader.data, name, payload)
  routed : setup.hostOf datagram.receiver name = some datagram.sender

def Formed (setup : Setup Node) (net : Network Node) : Prop :=
  ∀ datagram ∈ net.inFlight,
    (∃ name, net.Interest setup datagram name) ∨ ∃ name payload, Data setup datagram name payload

def along (sender receiver : Node) (datagram : Datagram Node) : Bool :=
  datagram.sender = sender ∧ datagram.receiver = receiver

/-- What a step does to the packets in flight and to what has been observed. -/
inductive Stepped (setup : Setup Node) (net next : Network Node) : Event Node → Prop
  | getContent {node : Node} {consumer : ℕ} {name : ContentName} {packet : Packet}
      (held : (setup.consumers node)[consumer]? = some name)
      (read : readPacket packet = some (CCNHeader.interest, name, []))
      (log : next.log = net.log ++ [.asked node consumer])
      (inFlight : next.inFlight = net.inFlight ++ (setup.hostOf node name).toList.map
        fun receiver => ⟨node, receiver, setup.address node, packet⟩) :
      Stepped setup net next (.getContent node consumer)
  | interest {sender receiver : Node} {datagram : Datagram Node} {rest : List (Datagram Node)}
      {name : ContentName} {packets : List Packet}
      (taken : Channel.takeFirst (along sender receiver) net.inFlight = some (datagram, rest))
      (interest : net.Interest setup datagram name)
      (reads : packets.map readPacket =
        (setup.blocksAt receiver name).map fun block => some (CCNHeader.data, name, block))
      (log : next.log = net.log ++ List.replicate (setup.blocksAt receiver name).length
        (.sentData receiver (setup.address sender) name))
      (inFlight : next.inFlight = rest ++ packets.map fun packet =>
        ⟨receiver, sender, setup.address receiver, packet⟩) :
      Stepped setup net next (.deliver sender receiver)
  | data {sender receiver : Node} {datagram : Datagram Node} {rest : List (Datagram Node)}
      {name : ContentName} {payload : Packet}
      (taken : Channel.takeFirst (along sender receiver) net.inFlight = some (datagram, rest))
      (data : Data setup datagram name payload)
      (log : next.log = net.log ++ (((setup.consumers receiver).findIdx? fun held =>
        held = name).toList.map fun consumer => .delivered receiver consumer name payload))
      (inFlight : next.inFlight = rest) :
      Stepped setup net next (.deliver sender receiver)

omit [DecidableEq Node] in
theorem Interest.names {net : Network Node} {datagram : Datagram Node} {name : ContentName}
    (interest : net.Interest setup datagram name) (resolved : setup.Resolved) :
    name.length < 20 ∧ 0 ∉ name := by
  obtain ⟨consumer, held, -⟩ := interest.asked
  exact resolved.names datagram.sender name (List.mem_of_getElem? held)

theorem along_takeFirst {sender receiver : Node} {datagram : Datagram Node}
    {list rest : List (Datagram Node)}
    (taken : Channel.takeFirst (along sender receiver) list = some (datagram, rest)) :
    datagram.sender = sender ∧ datagram.receiver = receiver := by
  simpa [along] using Channel.here_of_takeFirst taken

theorem deliver_spec {net : Network Node} (resolved : setup.Resolved) (formed : net.Formed setup)
    {sender receiver : Node} {datagram : Datagram Node} {rest : List (Datagram Node)}
    (taken : Channel.takeFirst (along sender receiver) net.inFlight = some (datagram, rest)) :
    ∃ next, net.deliver setup sender receiver = some next ∧
      Stepped setup net next (.deliver sender receiver) := by
  obtain ⟨rfl, rfl⟩ := along_takeFirst taken
  have ran : net.deliver setup datagram.sender datagram.receiver =
      ({ net with inFlight := rest } : Network Node).receive setup datagram.receiver
        datagram.source datagram.packet := by
    change (Channel.takeFirst (along datagram.sender datagram.receiver) net.inFlight).bind _ = _
    rw [taken]
    rfl
  rcases formed datagram ((Channel.perm_takeFirst taken).mem_iff.mpr (by simp)) with
    ⟨name, interest⟩ | ⟨name, payload, data⟩
  · obtain ⟨short, clean⟩ := interest.names resolved
    obtain ⟨packets, reads, received⟩ := receive_interest resolved short clean interest.read
      { net with inFlight := rest }
    rw [ran, interest.source]
    exact ⟨_, received, .interest taken interest reads rfl rfl⟩
  · rw [ran]
    exact ⟨_, receive_data data.read _ _, .data taken data rfl rfl⟩

theorem stepped {net next : Network Node} {event : Event Node} (resolved : setup.Resolved)
    (formed : net.Formed setup) (ran : net.step setup event = some next) :
    Stepped setup net next event := by
  cases event with
  | getContent node consumer =>
      obtain ⟨name, held, sent⟩ := Option.bind_eq_some_iff.mp ran
      obtain ⟨short, clean⟩ := resolved.names node name (List.mem_of_getElem? held)
      obtain ⟨packet, read, made⟩ := sendInterest_spec short clean
        (net.observe (.asked node consumer)) node
      rw [made] at sent
      exact .getContent held read (by rw [← Option.some.inj sent]; rfl)
        (by rw [← Option.some.inj sent]; rfl)
  | deliver sender receiver =>
      obtain ⟨⟨datagram, rest⟩, taken, -⟩ := Option.bind_eq_some_iff.mp ran
      obtain ⟨other, delivered, happened⟩ := deliver_spec resolved formed taken
      rw [← Option.some.inj (delivered.symm.trans ran)]
      exact happened

theorem Stepped.log_mem {net next : Network Node} {event : Event Node}
    (happened : Stepped setup net next event) {observation : Observation Node}
    (member : observation ∈ net.log) : observation ∈ next.log := by
  cases happened with
  | getContent held read log inFlight =>
      rw [log]
      exact List.mem_append_left _ member
  | interest taken interest reads log inFlight =>
      rw [log]
      exact List.mem_append_left _ member
  | data taken data log inFlight =>
      rw [log]
      exact List.mem_append_left _ member

theorem Stepped.asked {net next : Network Node} {event : Event Node}
    (happened : Stepped setup net next event) {node : Node} {name : ContentName}
    (asked : net.Asked setup node name) : next.Asked setup node name := by
  obtain ⟨consumer, held, member⟩ := asked
  exact ⟨consumer, held, happened.log_mem member⟩

omit [DecidableEq Node] in
theorem Interest.later {net next : Network Node} {datagram : Datagram Node} {name : ContentName}
    (interest : net.Interest setup datagram name)
    (asked : next.Asked setup datagram.sender name) : next.Interest setup datagram name :=
  ⟨interest.read, interest.routed, interest.source, asked⟩

omit [DecidableEq Node] in
theorem read_of_mem {packets blocks : List Packet} {name : ContentName} {packet : Packet}
    (reads : packets.map readPacket = blocks.map fun block => some (CCNHeader.data, name, block))
    (member : packet ∈ packets) :
    ∃ block, readPacket packet = some (CCNHeader.data, name, block) := by
  have listed : readPacket packet ∈ packets.map readPacket := List.mem_map_of_mem member
  rw [reads] at listed
  obtain ⟨block, -, same⟩ := List.mem_map.mp listed
  exact ⟨block, same.symm⟩

theorem Stepped.formed {net next : Network Node} {event : Event Node}
    (happened : Stepped setup net next event) (formed : net.Formed setup) :
    next.Formed setup := by
  have kept : ∀ datagram ∈ net.inFlight, (∃ name, next.Interest setup datagram name) ∨
      ∃ name payload, Data setup datagram name payload := by
    intro datagram member
    rcases formed datagram member with ⟨name, interest⟩ | data
    · exact .inl ⟨name, interest.later (happened.asked interest.asked)⟩
    · exact .inr data
  intro datagram member
  cases happened with
  | @getContent node consumer name packet held read log inFlight =>
      rw [inFlight] at member
      rcases List.mem_append.mp member with before | sent
      · exact kept datagram before
      · obtain ⟨receiver, routed, rfl⟩ := List.mem_map.mp sent
        refine .inl ⟨name, read, by simpa using routed, rfl, consumer, held, ?_⟩
        rw [log]
        exact List.mem_append_right _ (by simp)
  | @interest sender receiver datagram' rest name packets taken interest reads log inFlight =>
      rw [inFlight] at member
      rcases List.mem_append.mp member with before | sent
      · exact kept datagram ((Channel.perm_takeFirst taken).mem_iff.mpr (by simp [before]))
      · obtain ⟨packet, listed, rfl⟩ := List.mem_map.mp sent
        obtain ⟨block, read⟩ := read_of_mem reads listed
        obtain ⟨rfl, rfl⟩ := along_takeFirst taken
        exact .inr ⟨name, block, read, interest.routed⟩
  | data taken data log inFlight =>
      rw [inFlight] at member
      exact kept datagram ((Channel.perm_takeFirst taken).mem_iff.mpr (by simp [member]))

/-- Content is delivered under its name and sent to those that have asked for it. -/
structure Proper (setup : Setup Node) (net : Network Node) : Prop where
  delivered : ∀ node consumer name payload, .delivered node consumer name payload ∈ net.log →
    (setup.consumers node)[consumer]? = some name
  sentData : ∀ node destination name, .sentData node destination name ∈ net.log →
    ∃ asker, destination = setup.address asker ∧ net.Asked setup asker name

theorem held_of_findIdx? {held : List ContentName} {name : ContentName} {consumer : ℕ}
    (found : (held.findIdx? fun other => other = name) = some consumer) :
    held[consumer]? = some name := by
  obtain ⟨inside, same, -⟩ := List.findIdx?_eq_some_iff_getElem.mp found
  rw [List.getElem?_eq_getElem inside, of_decide_eq_true same]

theorem Stepped.proper {net next : Network Node} {event : Event Node}
    (happened : Stepped setup net next event) (proper : net.Proper setup) :
    next.Proper setup := by
  have sent : ∀ node destination name, .sentData node destination name ∈ net.log →
      ∃ asker, destination = setup.address asker ∧ next.Asked setup asker name := by
    intro node destination name member
    obtain ⟨asker, same, asked⟩ := proper.sentData node destination name member
    exact ⟨asker, same, happened.asked asked⟩
  constructor
  · intro node consumer name payload member
    cases happened with
    | getContent held read log inFlight =>
        simp only [log, List.mem_append, List.mem_singleton, reduceCtorEq, or_false] at member
        exact proper.delivered node consumer name payload member
    | interest taken interest reads log inFlight =>
        simp only [log, List.mem_append, List.mem_replicate, reduceCtorEq, and_false,
          or_false] at member
        exact proper.delivered node consumer name payload member
    | data taken data log inFlight =>
        rw [log] at member
        rcases List.mem_append.mp member with before | now
        · exact proper.delivered node consumer name payload before
        · obtain ⟨first, found, same⟩ := List.mem_map.mp now
          obtain ⟨rfl, rfl, rfl, rfl⟩ := Observation.delivered.inj same
          exact held_of_findIdx? (by simpa using found)
  · intro node destination name member
    cases happened with
    | getContent held read log inFlight =>
        simp only [log, List.mem_append, List.mem_singleton, reduceCtorEq, or_false] at member
        exact sent node destination name member
    | @interest sender receiver datagram rest found packets taken interest reads log inFlight =>
        rw [log] at member
        rcases List.mem_append.mp member with before | now
        · exact sent node destination name before
        · obtain ⟨rfl, rfl, rfl⟩ := Observation.sentData.inj (List.eq_of_mem_replicate now)
          obtain ⟨rfl, rfl⟩ := along_takeFirst taken
          obtain ⟨consumer, held, member⟩ := interest.asked
          refine ⟨datagram.sender, rfl, consumer, held, ?_⟩
          rw [log]
          exact List.mem_append_left _ member
    | data taken data log inFlight =>
        rw [log] at member
        rcases List.mem_append.mp member with before | now
        · exact sent node destination name before
        · simp at now

theorem run_proper (resolved : setup.Resolved) {events : List (Event Node)} {net : Network Node}
    (ran : run (step setup) {} events = some net) : net.Formed setup ∧ net.Proper setup := by
  have initial : ({} : Network Node).Formed setup ∧ ({} : Network Node).Proper setup := by
    refine ⟨?_, ?_, ?_⟩
    · intro datagram member
      cases member
    · intro node consumer name payload member
      cases member
    · intro node destination name member
      cases member
  have free : Guarded (step setup) (fun _ _ => True) {} events :=
    guarded_of_forall fun _ _ _ => trivial
  have keeps : ∀ (before : Network Node) (event : Event Node) (after : Network Node),
      before.Formed setup ∧ before.Proper setup → True →
        before.step setup event = some after → after.Formed setup ∧ after.Proper setup := by
    intro before event after holds _ stepping
    have happened := stepped resolved holds.1 stepping
    exact ⟨happened.formed holds.1, happened.proper holds.2⟩
  exact run_invariant keeps initial free ran

end Network

end FISim.ContentCentric
