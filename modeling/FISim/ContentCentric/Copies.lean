import FISim.ContentCentric.Delivery

/-!
How often a consumer gets its content.  What it has received, the blocks on their
way to it and the interests that are still to be answered always make up one copy
for each of its calls, if it is the first of its name on its node.
-/

namespace FISim.ContentCentric

open Transition

def copies (count : ℕ) (content : List UInt8) : List UInt8 :=
  (List.replicate count content).flatten

@[simp] theorem copies_zero (content : List UInt8) : copies 0 content = [] := rfl

theorem copies_succ (count : ℕ) (content : List UInt8) :
    copies (count + 1) content = content ++ copies count content := rfl

theorem copies_append (content : List UInt8) (count : ℕ) :
    copies count content ++ content = content ++ copies count content := by
  induction count with
  | zero => simp
  | succ count ih => rw [copies_succ, List.append_assoc, ih]

theorem Setup.blocksAt_flatten {Node : Type} {setup : Setup Node} {host : Node}
    {name : ContentName} {producer : Producer} {content : List UInt8}
    (served : ((setup.producers host).find? fun producer => producer.contentName = name) =
      some producer) (opened : producer.contentFile = some content) :
    (setup.blocksAt host name).flatten = content := by
  simp only [Setup.blocksAt, served, opened]
  exact contentBlocks_flatten content

namespace Network

variable {Node : Type} [DecidableEq Node] {setup : Setup Node} {net next : Network Node}

def receivedFrom (node : Node) (consumer : ℕ) : Observation Node → Packet
  | .delivered there reached _ payload =>
      if there = node ∧ reached = consumer then payload else []
  | _ => []

/-- The payloads that the callback of a consumer has been given. -/
def received (net : Network Node) (node : Node) (consumer : ℕ) : Packet :=
  net.log.flatMap (receivedFrom node consumer)

def calls (net : Network Node) (node : Node) (consumer : ℕ) : ℕ :=
  net.log.count (.asked node consumer)

def carried (host node : Node) (name : ContentName) (datagram : Datagram Node) : Packet :=
  match readPacket datagram.packet with
  | none => []
  | some (type, found, payload) =>
      if type = CCNHeader.data ∧ found = name ∧ datagram.sender = host ∧
        datagram.receiver = node then payload else []

def requests (host node : Node) (name : ContentName) (datagram : Datagram Node) : Bool :=
  match readPacket datagram.packet with
  | none => false
  | some (type, found, _) =>
      type = CCNHeader.interest ∧ found = name ∧ datagram.sender = node ∧ datagram.receiver = host

section Reading

variable {host node : Node} {name found : ContentName} {datagram : Datagram Node}
  {payload : Packet}

theorem carried_interest
    (read : readPacket datagram.packet = some (CCNHeader.interest, found, payload)) :
    carried host node name datagram = [] := by
  simp [carried, read, CCNHeader.interest, CCNHeader.data]

theorem requests_interest
    (read : readPacket datagram.packet = some (CCNHeader.interest, found, payload)) :
    requests host node name datagram = true ↔
      found = name ∧ datagram.sender = node ∧ datagram.receiver = host := by
  simp [requests, read]

theorem carried_data
    (read : readPacket datagram.packet = some (CCNHeader.data, found, payload)) :
    carried host node name datagram = if found = name ∧ datagram.sender = host ∧
      datagram.receiver = node then payload else [] := by
  simp [carried, read]

theorem requests_data
    (read : readPacket datagram.packet = some (CCNHeader.data, found, payload)) :
    requests host node name datagram = false := by
  simp [requests, read, CCNHeader.interest, CCNHeader.data]

theorem carried_elsewhere (elsewhere : along host node datagram = false) :
    carried host node name datagram = [] := by
  unfold carried
  split
  · rfl
  · rw [if_neg]
    rintro ⟨-, -, sent, received⟩
    simp [along, sent, received] at elsewhere

theorem carried_answer {packets blocks : List Packet} {answering asker : Node} {source : UInt32}
    (reads : packets.map readPacket = blocks.map fun block =>
      some (CCNHeader.data, found, block)) :
    (packets.map fun packet => (⟨answering, asker, source, packet⟩ : Datagram Node)).flatMap
        (carried host node name) =
      if found = name ∧ answering = host ∧ asker = node then blocks.flatten else [] := by
  induction packets generalizing blocks with
  | nil =>
      obtain rfl : blocks = [] := by simpa using reads.symm
      simp
  | cons packet rest ih =>
      cases blocks with
      | nil => cases reads
      | cons block others =>
          obtain ⟨read, reads⟩ := List.cons.inj reads
          rw [List.map_cons, List.flatMap_cons, ih reads, carried_data read]
          split
          · rfl
          · rfl

theorem requests_answer {packets blocks : List Packet} {answering asker : Node} {source : UInt32}
    (reads : packets.map readPacket = blocks.map fun block =>
      some (CCNHeader.data, found, block)) :
    (packets.map fun packet => (⟨answering, asker, source, packet⟩ : Datagram Node)).countP
      (requests host node name) = 0 := by
  rw [List.countP_eq_zero]
  intro datagram member
  obtain ⟨packet, listed, rfl⟩ := List.mem_map.mp member
  obtain ⟨block, read⟩ := read_of_mem reads listed
  have silent : requests host node name ⟨answering, asker, source, packet⟩ = false :=
    requests_data read
  simp [silent]

end Reading

/-- What is received, what is on its way and what is still asked for make up the copies. -/
def Balance (setup : Setup Node) (net : Network Node) (node : Node) (consumer : ℕ)
    (name : ContentName) (host : Node) : Prop :=
  net.received node consumer ++ net.inFlight.flatMap (carried host node name) ++
      copies (net.inFlight.countP (requests host node name)) (setup.blocksAt host name).flatten =
    copies (net.calls node consumer) (setup.blocksAt host name).flatten

def Balanced (setup : Setup Node) (net : Network Node) : Prop :=
  ∀ node consumer name host,
    ((setup.consumers node).findIdx? fun held => held = name) = some consumer →
    setup.hostOf node name = some host → net.Balance setup node consumer name host

-- The consumer that calls is the one that the search for its name finds.
def FirstOfName (setup : Setup Node) (_net : Network Node) : Event Node → Prop
  | .getContent node consumer => ∀ name, (setup.consumers node)[consumer]? = some name →
      ((setup.consumers node).findIdx? fun held => held = name) = some consumer
  | .deliver _ _ => True

theorem received_append (node : Node) (consumer : ℕ) {later : List (Observation Node)}
    (log : next.log = net.log ++ later) :
    next.received node consumer =
      net.received node consumer ++ later.flatMap (receivedFrom node consumer) := by
  rw [received, log, List.flatMap_append]
  rfl

theorem calls_append (node : Node) (consumer : ℕ) {later : List (Observation Node)}
    (log : next.log = net.log ++ later) :
    next.calls node consumer = net.calls node consumer + later.count (.asked node consumer) := by
  rw [calls, log, List.count_append]
  rfl

section Balance

variable {node : Node} {consumer : ℕ} {name found : ContentName} {host : Node}

theorem Balance.called {packet : Packet} (routed : setup.hostOf node name = some host)
    (read : readPacket packet = some (CCNHeader.interest, name, []))
    (log : next.log = net.log ++ [.asked node consumer])
    (inFlight : next.inFlight = net.inFlight ++ (setup.hostOf node name).toList.map
      fun receiver => ⟨node, receiver, setup.address node, packet⟩)
    (before : net.Balance setup node consumer name host) :
    next.Balance setup node consumer name host := by
  have sent : requests host node name ⟨node, host, setup.address node, packet⟩ = true :=
    (requests_interest read).mpr ⟨rfl, rfl, rfl⟩
  have silent : carried host node name ⟨node, host, setup.address node, packet⟩ = [] :=
    carried_interest read
  unfold Balance at before ⊢
  rw [received_append node consumer log, calls_append node consumer log, inFlight]
  simp only [routed, Option.toList_some, List.map_cons, List.map_nil, List.flatMap_append,
    List.flatMap_cons, List.flatMap_nil, receivedFrom, silent, List.append_nil,
    List.countP_append, List.countP_singleton, sent, ↓reduceIte, List.count_singleton_self]
  rw [copies_succ, copies_succ, ← copies_append, ← copies_append, ← before]
  simp only [List.append_assoc]

theorem Balance.calledElsewhere {packet : Packet} {asker : Node} {called : ℕ}
    (elsewhere : ¬(asker = node ∧ called = consumer)) (other : ¬(asker = node ∧ found = name))
    (read : readPacket packet = some (CCNHeader.interest, found, []))
    (log : next.log = net.log ++ [.asked asker called])
    (inFlight : next.inFlight = net.inFlight ++ (setup.hostOf asker found).toList.map
      fun receiver => ⟨asker, receiver, setup.address asker, packet⟩)
    (before : net.Balance setup node consumer name host) :
    next.Balance setup node consumer name host := by
  have uncounted : [Observation.asked asker called].count (.asked node consumer) = 0 := by
    rw [List.count_eq_zero]
    rintro (_ | ⟨_, ⟨⟩⟩)
    exact elsewhere ⟨rfl, rfl⟩
  have silent : ((setup.hostOf asker found).toList.map fun receiver =>
      (⟨asker, receiver, setup.address asker, packet⟩ : Datagram Node)).flatMap
        (carried host node name) = [] := by
    rw [List.flatMap_eq_nil_iff]
    intro datagram member
    obtain ⟨receiver, -, rfl⟩ := List.mem_map.mp member
    exact carried_interest read
  have unasked : ((setup.hostOf asker found).toList.map fun receiver =>
      (⟨asker, receiver, setup.address asker, packet⟩ : Datagram Node)).countP
        (requests host node name) = 0 := by
    rw [List.countP_eq_zero]
    intro datagram member asks
    obtain ⟨receiver, -, rfl⟩ := List.mem_map.mp member
    obtain ⟨named, here, -⟩ := (requests_interest read).mp asks
    exact other ⟨here, named⟩
  unfold Balance at before ⊢
  rw [received_append node consumer log, calls_append node consumer log, inFlight,
    List.flatMap_append, List.countP_append, silent, unasked, uncounted]
  simpa [receivedFrom] using before

theorem Balance.answered {datagram : Datagram Node} {rest : List (Datagram Node)}
    {packets : List Packet} {asker answering : Node}
    (taken : Channel.takeFirst (along asker answering) net.inFlight = some (datagram, rest))
    (read : readPacket datagram.packet = some (CCNHeader.interest, found, []))
    (reads : packets.map readPacket =
      (setup.blocksAt answering found).map fun block => some (CCNHeader.data, found, block))
    (log : next.log = net.log ++ List.replicate (setup.blocksAt answering found).length
      (.sentData answering (setup.address asker) found))
    (inFlight : next.inFlight = rest ++ packets.map fun packet =>
      ⟨answering, asker, setup.address answering, packet⟩)
    (before : net.Balance setup node consumer name host) :
    next.Balance setup node consumer name host := by
  obtain ⟨sent, arrived⟩ := along_takeFirst taken
  have untold : (List.replicate (setup.blocksAt answering found).length
      (Observation.sentData answering (setup.address asker) found)).flatMap
        (receivedFrom node consumer) = [] := by
    rw [List.flatMap_eq_nil_iff]
    intro observation member
    rw [List.eq_of_mem_replicate member]
    rfl
  have uncounted : (List.replicate (setup.blocksAt answering found).length
      (Observation.sentData answering (setup.address asker) found)).count
        (.asked node consumer) = 0 := by
    rw [List.count_eq_zero]
    intro member
    cases List.eq_of_mem_replicate member
  unfold Balance at before ⊢
  rw [Channel.flatMap_takeFirst_of_nil taken (carried_interest read),
    Channel.countP_takeFirst taken] at before
  rw [received_append node consumer log, calls_append node consumer log, untold, uncounted,
    inFlight, List.flatMap_append, List.countP_append, carried_answer reads,
    requests_answer reads, List.append_nil, Nat.add_zero, Nat.add_zero, ← before]
  by_cases same : found = name ∧ answering = host ∧ asker = node
  · have asks : requests host node name datagram = true :=
      (requests_interest read).mpr ⟨same.1, sent.trans same.2.2, arrived.trans same.2.1⟩
    rw [if_pos same, if_pos asks, same.1, same.2.1, copies_succ]
    simp only [List.append_assoc]
  · have silent : ¬requests host node name datagram = true := by
      intro asks
      obtain ⟨named, here, there⟩ := (requests_interest read).mp asks
      exact same ⟨named, arrived.symm.trans there, sent.symm.trans here⟩
    rw [if_neg same, if_neg silent, List.append_nil, Nat.add_zero]

theorem Balance.passedOn {datagram : Datagram Node} {rest : List (Datagram Node)}
    {payload : Packet} {sending reached : Node}
    (first : ((setup.consumers node).findIdx? fun held => held = name) = some consumer)
    (routed : setup.hostOf node name = some host)
    (taken : Channel.takeFirst (along sending reached) net.inFlight = some (datagram, rest))
    (data : Data setup datagram found payload)
    (log : next.log = net.log ++ (((setup.consumers reached).findIdx? fun held =>
      held = found).toList.map fun consumer => .delivered reached consumer found payload))
    (inFlight : next.inFlight = rest) (before : net.Balance setup node consumer name host) :
    next.Balance setup node consumer name host := by
  obtain ⟨sent, arrived⟩ := along_takeFirst taken
  have uncounted : (((setup.consumers reached).findIdx? fun held =>
      held = found).toList.map fun consumer =>
        Observation.delivered reached consumer found payload).count (.asked node consumer) = 0 := by
    rw [List.count_eq_zero]
    intro member
    obtain ⟨_, _, ⟨⟩⟩ := List.mem_map.mp member
  unfold Balance at before ⊢
  rw [Channel.countP_takeFirst taken, requests_data data.read] at before
  rw [received_append node consumer log, calls_append node consumer log, inFlight, uncounted]
  by_cases same : found = name ∧ reached = node
  · obtain ⟨rfl, rfl⟩ := same
    obtain rfl : sending = host := by
      have towards := data.routed
      rw [arrived, routed, sent] at towards
      exact (Option.some.inj towards).symm
    rw [Channel.flatMap_takeFirst taken fun item elsewhere => carried_elsewhere elsewhere,
      carried_data data.read, if_pos ⟨rfl, sent, arrived⟩] at before
    simpa [first, receivedFrom] using before
  · have silent : carried host node name datagram = [] := by
      rw [carried_data data.read, if_neg]
      rintro ⟨named, -, here⟩
      exact same ⟨named, arrived.symm.trans here⟩
    have untold : (((setup.consumers reached).findIdx? fun held =>
        held = found).toList.map fun consumer =>
          Observation.delivered reached consumer found payload).flatMap
            (receivedFrom node consumer) = [] := by
      rw [List.flatMap_eq_nil_iff]
      intro observation member
      obtain ⟨other, there, rfl⟩ := List.mem_map.mp member
      rw [receivedFrom, if_neg]
      rintro ⟨rfl, rfl⟩
      have named := held_of_findIdx? (by simpa using there)
      rw [held_of_findIdx? first] at named
      exact same ⟨(Option.some.inj named).symm, rfl⟩
    rw [Channel.flatMap_takeFirst_of_nil taken silent] at before
    rw [untold]
    simpa using before

end Balance

theorem Stepped.balanced {event : Event Node} (happened : Stepped setup net next event)
    (met : FirstOfName setup net event) (balanced : net.Balanced setup) :
    next.Balanced setup := by
  intro node consumer name host first routed
  have before := balanced node consumer name host first routed
  cases happened with
  | @getContent asker called found packet held read log inFlight =>
      by_cases same : asker = node ∧ found = name
      · obtain ⟨rfl, rfl⟩ := same
        obtain rfl : called = consumer := Option.some.inj ((met found held).symm.trans first)
        exact before.called routed read log inFlight
      · refine before.calledElsewhere ?_ same read log inFlight
        rintro ⟨rfl, rfl⟩
        have named := held_of_findIdx? first
        rw [held] at named
        exact same ⟨rfl, Option.some.inj named⟩
  | interest taken interest reads log inFlight =>
      exact before.answered taken interest.read reads log inFlight
  | data taken data log inFlight =>
      exact before.passedOn first routed taken data log inFlight

def weight (setup : Setup Node) (datagram : Datagram Node) : ℕ :=
  match readPacket datagram.packet with
  | none => 1
  | some (type, found, _) =>
      if type = CCNHeader.interest then 1 + (setup.blocksAt datagram.receiver found).length else 1

/-- How many packets are still to be delivered, with the answers to the interests. -/
def work (setup : Setup Node) (net : Network Node) : ℕ := (net.inFlight.map (weight setup)).sum

omit [DecidableEq Node] in
theorem weight_data {datagram : Datagram Node} {name : ContentName} {payload : Packet}
    (read : readPacket datagram.packet = some (CCNHeader.data, name, payload)) :
    weight setup datagram = 1 := by
  simp [weight, read, CCNHeader.data, CCNHeader.interest]

omit [DecidableEq Node] in
theorem weight_pos (setup : Setup Node) (datagram : Datagram Node) : 0 < weight setup datagram := by
  unfold weight
  split
  · omega
  · split <;> omega

omit [DecidableEq Node] in
theorem work_eq_zero : net.work setup = 0 ↔ net.inFlight = [] := by
  unfold work
  cases net.inFlight with
  | nil => simp
  | cons datagram rest =>
      have := weight_pos setup datagram
      simp
      omega

omit [DecidableEq Node] in
theorem weight_answer {packets blocks : List Packet} {name : ContentName}
    {answering asker : Node} {source : UInt32}
    (reads : packets.map readPacket = blocks.map fun block =>
      some (CCNHeader.data, name, block)) :
    ((packets.map fun packet => (⟨answering, asker, source, packet⟩ : Datagram Node)).map
      (weight setup)).sum = blocks.length := by
  have each : ∀ datagram ∈ packets.map fun packet =>
      (⟨answering, asker, source, packet⟩ : Datagram Node), weight setup datagram = 1 := by
    intro datagram member
    obtain ⟨packet, listed, rfl⟩ := List.mem_map.mp member
    obtain ⟨block, read⟩ := read_of_mem reads listed
    exact weight_data read
  have size := congrArg List.length reads
  rw [List.length_map, List.length_map] at size
  rw [List.map_congr_left each, List.map_const', List.length_map, List.sum_replicate_nat, size,
    Nat.mul_one]

theorem Stepped.work {sender receiver : Node}
    (happened : Stepped setup net next (.deliver sender receiver)) :
    net.work setup = next.work setup + 1 := by
  have taking : ∀ {datagram rest},
      Channel.takeFirst (along sender receiver) net.inFlight = some (datagram, rest) →
        net.work setup = weight setup datagram + (rest.map (weight setup)).sum := by
    intro datagram rest taken
    exact ((Channel.perm_takeFirst taken).map (weight setup)).sum_eq
  cases happened with
  | interest taken interest reads log inFlight =>
      obtain ⟨-, arrived⟩ := along_takeFirst taken
      rw [taking taken, Network.work, inFlight, List.map_append, List.sum_append,
        weight_answer reads, weight, interest.read, arrived]
      simp only [↓reduceIte]
      omega
  | data taken data log inFlight =>
      rw [taking taken, weight_data data.read, Network.work, inFlight]
      omega

def Deliveries (events : List (Event Node)) : Prop :=
  ∀ event ∈ events, ∃ sender receiver, event = .deliver sender receiver

theorem run_work (resolved : setup.Resolved) {deliveries : List (Event Node)}
    (only : Deliveries deliveries) (formed : net.Formed setup)
    (ran : run (step setup) net deliveries = some next) :
    net.work setup = next.work setup + deliveries.length := by
  induction deliveries generalizing net with
  | nil =>
      rw [run_nil, Option.some.injEq] at ran
      simp [ran]
  | cons event rest ih =>
      rw [run_cons] at ran
      obtain ⟨middle, stepping, later⟩ := Option.bind_eq_some_iff.mp ran
      obtain ⟨sender, receiver, rfl⟩ := only event (by simp)
      have happened := stepped resolved formed stepping
      have remaining := ih (fun other member => only other (by simp [member]))
        (happened.formed formed) later
      rw [happened.work, remaining, List.length_cons]
      omega

theorem exists_drain (resolved : setup.Resolved) (formed : net.Formed setup) :
    ∃ deliveries last, Deliveries deliveries ∧
      run (step setup) net deliveries = some last ∧ last.inFlight = [] := by
  induction left : net.work setup generalizing net with
  | zero => exact ⟨[], net, by simp [Deliveries], rfl, work_eq_zero.mp left⟩
  | succ left ih =>
      obtain ⟨datagram, rest, listed⟩ : ∃ datagram rest, net.inFlight = datagram :: rest := by
        refine List.exists_cons_of_ne_nil ?_
        intro empty
        rw [work_eq_zero.mpr empty] at left
        omega
      have taken : Channel.takeFirst (along datagram.sender datagram.receiver) net.inFlight =
          some (datagram, rest) := by
        rw [listed]
        exact Channel.takeFirst_head (by simp [along])
      obtain ⟨middle, delivered, happened⟩ := deliver_spec resolved formed taken
      have less := happened.work
      obtain ⟨deliveries, last, only, ran, empty⟩ :=
        ih (happened.formed formed) (by omega)
      refine ⟨.deliver datagram.sender datagram.receiver :: deliveries, last, ?_, ?_, empty⟩
      · intro event member
        rcases List.mem_cons.mp member with rfl | later
        · exact ⟨_, _, rfl⟩
        · exact only event later
      · rw [run_cons]
        exact Option.bind_eq_some_iff.mpr ⟨middle, delivered, ran⟩

end Network

/-- The host that an interest in the name goes to serves it. -/
structure Setup.Serves {Node : Type} (setup : Setup Node) (node : Node) (name : ContentName)
    (host : Node) (content : List UInt8) : Prop where
  routed : setup.hostOf node name = some host
  produced : ∃ producer, ((setup.producers host).find? fun producer =>
    producer.contentName = name) = some producer ∧ producer.contentFile = some content

namespace Network

variable {Node : Type} [DecidableEq Node] {setup : Setup Node} {net next : Network Node}

/-- Every consumer that has called has received the content that its name is served, once for
each call. -/
def Delivers (setup : Setup Node) (net : Network Node) : Prop :=
  ∀ node consumer name host content, (setup.consumers node)[consumer]? = some name →
    setup.Serves node name host content → .asked node consumer ∈ net.log →
    net.received node consumer = copies (net.calls node consumer) content

def FirstCalled (setup : Setup Node) (net : Network Node) : Prop :=
  ∀ node consumer, .asked node consumer ∈ net.log →
    ∀ name, (setup.consumers node)[consumer]? = some name →
      ((setup.consumers node).findIdx? fun held => held = name) = some consumer

theorem Stepped.firstCalled {event : Event Node} (happened : Stepped setup net next event)
    (met : FirstOfName setup net event) (called : net.FirstCalled setup) :
    next.FirstCalled setup := by
  intro node consumer member
  cases happened with
  | getContent held read log inFlight =>
      rw [log] at member
      rcases List.mem_append.mp member with before | now
      · exact called node consumer before
      · obtain ⟨rfl, rfl⟩ := Observation.asked.inj (List.mem_singleton.mp now)
        exact met
  | interest taken interest reads log inFlight =>
      simp only [log, List.mem_append, List.mem_replicate, reduceCtorEq, and_false,
        or_false] at member
      exact called node consumer member
  | data taken data log inFlight =>
      simp only [log, List.mem_append, List.mem_map, reduceCtorEq, and_false, exists_false,
        or_false] at member
      exact called node consumer member

structure Kept (setup : Setup Node) (net : Network Node) : Prop where
  formed : net.Formed setup
  balanced : net.Balanced setup
  firstCalled : net.FirstCalled setup

theorem Kept.delivers (kept : net.Kept setup) (empty : net.inFlight = []) :
    net.Delivers setup := by
  intro node consumer name host content held serves asked
  obtain ⟨producer, served, opened⟩ := serves.produced
  have balance := kept.balanced node consumer name host
    (kept.firstCalled node consumer asked name held) serves.routed
  unfold Balance at balance
  rw [empty, Setup.blocksAt_flatten served opened] at balance
  simpa using balance

theorem kept_initial : ({} : Network Node).Kept setup := by
  refine ⟨?_, ?_, ?_⟩
  · intro datagram member
    cases member
  · intro node consumer name host first routed
    rfl
  · intro node consumer member
    cases member

theorem run_kept (resolved : setup.Resolved) {events : List (Event Node)}
    (guarded : Guarded (step setup) (FirstOfName setup) net events)
    (ran : run (step setup) net events = some next) (kept : net.Kept setup) :
    next.Kept setup := by
  have keeps : ∀ (before : Network Node) (event : Event Node) (after : Network Node),
      before.Kept setup → FirstOfName setup before event →
        before.step setup event = some after → after.Kept setup := by
    intro before event after holds met stepping
    have happened := stepped resolved holds.formed stepping
    exact ⟨happened.formed holds.formed, happened.balanced met holds.balanced,
      happened.firstCalled met holds.firstCalled⟩
  exact run_invariant keeps kept guarded ran

/-- Where only consumers that are the first of their name call, content is delivered and sent
properly, the packets in flight can always be delivered, each delivery is one step of the work
that is left, and when none is left each consumer that called has its content. -/
theorem content_delivered (resolved : setup.Resolved) {events : List (Event Node)}
    (guarded : Guarded (step setup) (FirstOfName setup) {} events)
    (ran : run (step setup) {} events = some net) :
    net.Proper setup ∧
      (∃ deliveries last, Deliveries deliveries ∧
        run (step setup) net deliveries = some last ∧ last.inFlight = []) ∧
      ∀ deliveries last, Deliveries deliveries → run (step setup) net deliveries = some last →
        deliveries.length ≤ net.work setup ∧
          (deliveries.length = net.work setup ↔ last.inFlight = []) ∧
          (last.inFlight = [] → last.Delivers setup) := by
  have kept := run_kept resolved guarded ran kept_initial
  refine ⟨(run_proper resolved ran).2, exists_drain resolved kept.formed, ?_⟩
  intro deliveries last only drained
  have paid := run_work resolved only kept.formed drained
  refine ⟨by omega, ?_, ?_⟩
  · rw [← @work_eq_zero _ setup last]
    omega
  · refine (run_kept resolved (guarded_of_forall ?_) drained kept).delivers
    intro state event member
    obtain ⟨sender, receiver, rfl⟩ := only event member
    trivial

end Network

/-- Two consumers of one name at the first node, and its producer at the second. -/
def shared : Setup Bool where
  address node := if node then 2 else 1
  route destination := if destination = 2 then some true else if destination = 1 then some false
    else none
  consumers node := if node then [] else [[47, 97, 47, 98], [47, 97, 47, 98]]
  producers node := if node then [{ contentName := [47, 97, 47, 98], contentFile := some [7] }]
    else []
  contentPrefixToHostAddress _ contentPrefix := if contentPrefix = [47, 97] then some 2 else none

theorem shared_resolved : shared.Resolved := by
  refine ⟨?_, ?_, ?_⟩
  · decide
  · decide
  · decide

theorem shared_serves : shared.Serves false [47, 97, 47, 98] true [7] := by
  refine ⟨by decide, ?_⟩
  exact ⟨_, rfl, rfl⟩

theorem content_delivered_alone : ∃ net last,
    run (Network.step shared) {} [.getContent false 0] = some net ∧ net.Proper shared ∧
      run (Network.step shared) net [.deliver false true, .deliver true false] = some last ∧
      last.inFlight = [] ∧ last.received false 0 = [7] := by
  obtain ⟨net, ran⟩ : ∃ net, run (Network.step shared) {} [.getContent false 0] = some net :=
    Option.isSome_iff_exists.mp (by decide +kernel)
  obtain ⟨last, drained⟩ : ∃ last,
      run (Network.step shared) net [.deliver false true, .deliver true false] = some last :=
    Option.isSome_iff_exists.mp (by
      have found : ((run (Network.step shared) {} [.getContent false 0]).bind fun net =>
        run (Network.step shared) net [.deliver false true, .deliver true false]).isSome := by
          decide +kernel
      rwa [ran] at found)
  have whole := run_append_some ran drained
  have state : (run (Network.step shared) {} ([.getContent false 0] ++
      [.deliver false true, .deliver true false])).map (fun last =>
        (last.inFlight, decide (Observation.asked false 0 ∈ last.log), last.calls false 0)) =
      some ([], true, 1) := by
    decide +kernel
  rw [whole, Option.map_some, Option.some.injEq, Prod.mk.injEq, Prod.mk.injEq] at state
  obtain ⟨empty, asked, once⟩ := state
  have guarded : Guarded (Network.step shared) (Network.FirstOfName shared) {}
      [.getContent false 0] := by
    refine ⟨?_, fun _ _ => trivial⟩
    intro name held
    obtain rfl := Option.some.inj held
    decide
  obtain ⟨proper, -, drains⟩ := Network.content_delivered shared_resolved guarded ran
  refine ⟨net, last, ran, proper, drained, empty, ?_⟩
  have only : Network.Deliveries [.deliver false true, .deliver true false] := by
    simp [Network.Deliveries]
  rw [(drains _ last only drained).2.2 empty false 0 _ true _ rfl shared_serves
    (of_decide_eq_true asked), once]
  rfl

/-- The second of two consumers of one name calls too, and its content goes to the first. -/
theorem second_consumer_starved : ∃ last,
    run (Network.step shared) {} [.getContent false 0, .getContent false 1, .deliver false true,
      .deliver false true, .deliver true false, .deliver true false] = some last ∧
      last.inFlight = [] ∧ last.received false 0 = [7, 7] ∧ last.received false 1 = [] ∧
      ¬last.Delivers shared := by
  have state : (run (Network.step shared) {} [.getContent false 0, .getContent false 1,
      .deliver false true, .deliver false true, .deliver true false,
      .deliver true false]).map (fun last =>
        (last.inFlight, last.received false 0, last.received false 1,
          decide (Observation.asked false 1 ∈ last.log), last.calls false 1)) =
      some ([], [7, 7], [], true, 1) := by
    decide +kernel
  obtain ⟨last, ran, state⟩ := Option.map_eq_some_iff.mp state
  simp only [Prod.mk.injEq] at state
  obtain ⟨empty, first, second, asked, once⟩ := state
  refine ⟨last, ran, empty, first, second, ?_⟩
  intro delivers
  have content := delivers false 1 _ true _ rfl shared_serves (of_decide_eq_true asked)
  rw [second, once] at content
  cases content

end FISim.ContentCentric
