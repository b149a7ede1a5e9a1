import FISim.AddressResolution.Expiring
import FISim.Lib.Transition
import Mathlib.Data.Fintype.Basic

/-!
Stations on one link that ask each other for their addresses.  What one of them sends
reaches any of them at any time, any number of times, or never.
-/

namespace FISim.Arp

open Transition Ipv4Interface

structure Link (Node : Type) where
  station : Node → Station
  length : ℕ
  valid : length = 6 ∨ length = 8 ∨ length = 1
  addresses : ∀ node, (station node).getAddress.length = length
  broadcasts : ∀ node, (station node).getBroadcast.length = length

variable {Node Pair : Type}

/-- The hardware address of a station that has the address. -/
def Link.Owns (link : Link Node) (address : Ipv4Address) (macAddress : Address) : Prop :=
  ∃ node, (link.station node).isLocal address = true ∧ (link.station node).getAddress = macAddress

/-- A message of the link: what it replies is right. -/
structure Message (link : Link Node) (arp : ArpHeader) : Prop where
  source : arp.macSource.length = link.length
  dest : arp.macDest.length = link.length
  honest : arp.isReply = true → link.Owns arp.ipv4Source arp.macSource

theorem Message.sized {link : Link Node} {arp : ArpHeader} (message : Message link arp) : arp.Sized :=
  ⟨message.source ▸ link.valid, message.source.trans message.dest.symm⟩

theorem Message.read {link : Link Node} {arp : ArpHeader} (message : Message link arp) :
    ArpHeader.deserialize arp.serialize = some (some arp, []) := by
  have reads := ArpHeader.reads message.sized []
  rwa [List.append_nil] at reads

theorem message_request (link : Link Node) (node : Node) (destination : Ipv4Address) :
    Message link ((link.station node).sendArpRequest destination) :=
  ⟨link.addresses node, link.broadcasts node, fun isReply => by cases isReply⟩

theorem message_reply {link : Link Node} {arp : ArpHeader} (message : Message link arp) {node : Node}
    (here : (link.station node).isLocal arp.ipv4Dest = true) :
    Message link ((link.station node).sendArpReply arp.ipv4Dest arp.ipv4Source arp.macSource) :=
  ⟨link.addresses node, message.source, fun _ => ⟨node, here, rfl⟩⟩

instance [Fintype Node] (link : Link Node) (address : Ipv4Address) (macAddress : Address) :
    Decidable (link.Owns address macAddress) :=
  inferInstanceAs (Decidable (∃ _, _ ∧ _))

structure State (Node Pair : Type) where
  now : ℕ := 0
  interfaces : Node → Ipv4Interface Pair := fun _ => {}
  -- the packets sent so far
  air : List Packet := []

inductive Event (Node Pair : Type)
  | advance (moment : ℕ)
  | setUp (node : Node) (ifup : Bool)
  | send (node : Node) (pair : Pair) (dest : Ipv4Address)
  | sendArpRequest (node : Node) (index : ℕ)
  | handleWaitReplyTimeout (node : Node)
  | receive (node : Node) (index : ℕ)
  | packetReceived (node : Node) (source : Ipv4Address) (sender : Address)
  | addEntry (node : Node) (address : Ipv4Address) (macAddress : Address)
  | removeAutoGeneratedEntries (node : Node)
  | flush (node : Node)
  | remove (node : Node) (address : Ipv4Address)

namespace State

variable (state : State Node Pair)

def put [DecidableEq Node] (node : Node) (interface : Ipv4Interface Pair) (messages : List ArpHeader) :
    State Node Pair :=
  { state with
    interfaces := Function.update state.interfaces node interface
    air := state.air ++ messages.map ArpHeader.serialize }

def step [DecidableEq Node] (link : Link Node) (state : State Node Pair) : Event Node Pair → Option (State Node Pair)
  | .advance moment => if state.now ≤ moment then some { state with now := moment } else none
  | .setUp node ifup => some (state.put node { state.interfaces node with ifup } [])
  | .send node pair dest =>
      (((state.interfaces node).hand pair dest).send (link.station node) state.now pair dest).map
        fun interface => state.put node interface []
  | .sendArpRequest node index => do
      let interface := state.interfaces node
      let destination ← interface.scheduled[index]?
      return state.put node { interface with scheduled := interface.scheduled.eraseIdx index }
        [(link.station node).sendArpRequest destination]
  | .handleWaitReplyTimeout node =>
      let interface := state.interfaces node
      if interface.cache.waitReplyTimer = some state.now then
        let (interface, requests) := interface.handleWaitReplyTimeout (link.station node) state.now
        some (state.put node interface requests)
      else none
  | .receive node index => do
      let packet ← state.air[index]?
      let (found, _) ← ArpHeader.deserialize packet
      match found with
      | none => return state
      | some arp =>
          let (interface, replies) ←
            (state.interfaces node).receive (link.station node) state.now arp
          return state.put node interface replies
  | .packetReceived node source sender =>
      some (state.put node ((state.interfaces node).packetReceived state.now source sender) [])
  | .addEntry node address macAddress =>
      ((state.interfaces node).addEntry state.now address macAddress).map fun interface =>
        state.put node interface []
  | .removeAutoGeneratedEntries node =>
      some (state.put node (state.interfaces node).removeAutoGeneratedEntries [])
  | .flush node => some (state.put node (state.interfaces node).flush [])
  | .remove node address => some (state.put node ((state.interfaces node).remove address) [])

/-- A timer that runs goes off in time, and an entry that is made from outside is right and nothing
waits for it. -/
def Legal (link : Link Node) (state : State Node Pair) : Event Node Pair → Prop
  | .advance moment => ∀ node, ∀ due ∈ (state.interfaces node).cache.waitReplyTimer, moment ≤ due
  | .addEntry node address macAddress => link.Owns address macAddress ∧
      ∀ entry ∈ (state.interfaces node).cache.lookup address, entry.isWaitReply = false
  | _ => True

instance [Fintype Node] (link : Link Node) (state : State Node Pair) :
    ∀ event, Decidable (state.Legal link event)
  | .advance moment => inferInstanceAs (Decidable (∀ node,
      ∀ due ∈ (state.interfaces node).cache.waitReplyTimer, moment ≤ due))
  | .addEntry node address macAddress =>
      inferInstanceAs (Decidable (link.Owns address macAddress ∧
        ∀ entry ∈ (state.interfaces node).cache.lookup address, entry.isWaitReply = false))
  | .setUp _ _ | .send _ _ _ | .sendArpRequest _ _ | .handleWaitReplyTimeout _ | .receive _ _
  | .packetReceived _ _ _ | .removeAutoGeneratedEntries _ | .flush _ | .remove _ _ => isTrue trivial

/-- What a station has asked for, whether or not it was heard. -/
def requested (link : Link Node) (state : State Node Pair) (node : Node) (dest : Ipv4Address) :
    Prop := ((link.station node).sendArpRequest dest).serialize ∈ state.air

end State

structure Sound (link : Link Node) (state : State Node Pair) : Prop where
  kept : ∀ node, Inv (link.station node) link.Owns (state.requested link node) state.now
    (state.interfaces node)
  air : ∀ packet ∈ state.air, ∃ arp : ArpHeader, packet = arp.serialize ∧ Message link arp

theorem sound_initial (link : Link Node) : Sound link ({} : State Node Pair) where
  kept _ := by
    refine ⟨fun dest entry found => ?_, fun due running => ?_, fun due running => ?_,
      fun record member => absurd member List.not_mem_nil, fun dest => Custody.nil⟩
    · cases found
    · cases running
    · cases running
  air _ member := absurd member List.not_mem_nil

variable [DecidableEq Node] {link : Link Node} {state : State Node Pair}

@[simp] theorem State.put_air (node : Node) (interface : Ipv4Interface Pair)
    (messages : List ArpHeader) :
    (state.put node interface messages).air = state.air ++ messages.map ArpHeader.serialize := rfl

@[simp] theorem State.put_self (node : Node) (interface : Ipv4Interface Pair)
    (messages : List ArpHeader) : (state.put node interface messages).interfaces node = interface := by
  simp [State.put]

theorem State.put_of_ne {node other : Node} (different : other ≠ node)
    (interface : Ipv4Interface Pair) (messages : List ArpHeader) :
    (state.put node interface messages).interfaces other = state.interfaces other := by
  simp [State.put, different]

theorem State.requested_put (node other : Node) (interface : Ipv4Interface Pair)
    (messages : List ArpHeader) (dest : Ipv4Address) (asked : state.requested link other dest) :
    (state.put node interface messages).requested link other dest :=
  List.mem_append_left _ asked

theorem State.put_unchanged (node other : Node) (messages : List ArpHeader) :
    (state.put node (state.interfaces node) messages).interfaces other = state.interfaces other := by
  rw [State.put, Function.update_eq_self]

theorem Message.heard {arp : ArpHeader} (message : Message link arp) {node : Node} {index : ℕ}
    (isNext : state.air[index]? = some arp.serialize) {interface : Ipv4Interface Pair}
    {replies : List ArpHeader} (receives : (state.interfaces node).receive (link.station node)
      state.now arp = some (interface, replies)) :
    state.step link (.receive node index) = some (state.put node interface replies) := by
  rw [State.step, isNext, Option.bind_eq_bind, Option.bind_some, message.read,
    Option.bind_eq_bind, Option.bind_some]
  dsimp only
  rw [receives]
  rfl

namespace Sound

variable (sound : Sound link state)
include sound

theorem put {node : Node} {interface : Ipv4Interface Pair} {messages : List ArpHeader}
    (inv : Inv (link.station node) link.Owns
      ((state.put node interface messages).requested link node) state.now interface)
    (honest : ∀ arp ∈ messages, Message link arp) :
    Sound link (state.put node interface messages) := by
  constructor
  · intro other
    by_cases same : other = node
    · subst same
      rw [State.put_self]
      exact inv
    · rw [State.put_of_ne same]
      exact (sound.kept other).later (State.requested_put node other interface messages)
        (Nat.le_refl _) (sound.kept other).timely
  · intro packet member
    rcases List.mem_append.mp member with before | new
    · exact sound.air packet before
    · obtain ⟨arp, isNew, rfl⟩ := List.mem_map.mp new
      exact ⟨arp, rfl, honest arp isNew⟩

theorem quiet {node : Node} {interface : Ipv4Interface Pair}
    (inv : Inv (link.station node) link.Owns (state.requested link node) state.now interface) :
    Sound link (state.put node interface []) :=
  sound.put (inv.later (State.requested_put node node interface []) (Nat.le_refl _) inv.timely)
    fun _ member => absurd member List.not_mem_nil

theorem send (node : Node) (pair : Pair) (dest : Ipv4Address) :
    ∃ next, state.step link (.send node pair dest) = some next ∧ Sound link next := by
  obtain ⟨interface, sends, inv⟩ := (sound.kept node).send pair dest
  exact ⟨_, by rw [State.step, sends]; rfl, sound.quiet inv⟩

theorem receive (node : Node) {index : ℕ} (bound : index < state.air.length) :
    ∃ next, state.step link (.receive node index) = some next ∧ Sound link next := by
  obtain ⟨arp, isArp, message⟩ := sound.air _ (List.getElem_mem bound)
  obtain ⟨interface, replies, receives, inv, right⟩ := (sound.kept node).receive message.honest
  refine ⟨state.put node interface replies, message.heard ?_ receives, sound.put (inv.later
    (State.requested_put node node interface replies) (Nat.le_refl _) inv.timely) ?_⟩
  · rw [List.getElem?_eq_getElem bound, isArp]
  · intro reply member
    obtain ⟨rfl, here⟩ := right reply member
    exact message_reply message here

theorem sendArpRequest (node : Node) {index : ℕ}
    (bound : index < (state.interfaces node).scheduled.length) :
    ∃ next, state.step link (.sendArpRequest node index) = some next ∧ Sound link next := by
  have isNext := List.getElem?_eq_getElem bound
  refine ⟨_, by rw [State.step, isNext]; rfl, sound.put ?_ ?_⟩
  · exact (sound.kept node).requests isNext (State.requested_put node node _ _)
      (List.mem_append_right _ (List.mem_singleton_self _))
  · intro arp member
    obtain rfl := List.mem_singleton.mp member
    exact message_request link node _

theorem handleWaitReplyTimeout (node : Node)
    (due : (state.interfaces node).cache.waitReplyTimer = some state.now) :
    ∃ next, state.step link (.handleWaitReplyTimeout node) = some next ∧ Sound link next := by
  have inv := (sound.kept node).timeout due
  refine ⟨_, by rw [State.step]; exact if_pos due, sound.put (inv.later
    (State.requested_put node node _ _) (Nat.le_refl _) inv.timely) ?_⟩
  intro arp member
  obtain ⟨destination, -, rfl⟩ := List.mem_map.mp member
  exact message_request link node destination

theorem step {event : Event Node Pair} {next : State Node Pair} (legal : state.Legal link event)
    (stepped : state.step link event = some next) : Sound link next := by
  cases event with
  | advance moment =>
      rw [State.step] at stepped
      split at stepped
      · rename_i later
        obtain rfl := Option.some.inj stepped
        exact ⟨fun node => (sound.kept node).later (fun _ asked => asked) later (legal node),
          sound.air⟩
      · cases stepped
  | setUp node ifup =>
      obtain rfl := Option.some.inj stepped
      have inv := sound.kept node
      exact sound.quiet ⟨inv.entries, inv.timely, inv.soon, inv.resolved, inv.custody⟩
  | send node pair dest =>
      obtain ⟨other, again, kept⟩ := sound.send node pair dest
      exact Option.some.inj (stepped.symm.trans again) ▸ kept
  | sendArpRequest node index =>
      obtain ⟨destination, isNext, -⟩ := Option.bind_eq_some_iff.mp stepped
      obtain ⟨other, again, kept⟩ :=
        sound.sendArpRequest node (List.getElem?_eq_some_iff.mp isNext).1
      exact Option.some.inj (stepped.symm.trans again) ▸ kept
  | handleWaitReplyTimeout node =>
      have due : (state.interfaces node).cache.waitReplyTimer = some state.now := by
        by_contra early
        rw [State.step] at stepped
        rw [if_neg early] at stepped
        cases stepped
      obtain ⟨other, again, kept⟩ := sound.handleWaitReplyTimeout node due
      exact Option.some.inj (stepped.symm.trans again) ▸ kept
  | receive node index =>
      obtain ⟨packet, isNext, -⟩ := Option.bind_eq_some_iff.mp stepped
      obtain ⟨other, again, kept⟩ := sound.receive node (List.getElem?_eq_some_iff.mp isNext).1
      exact Option.some.inj (stepped.symm.trans again) ▸ kept
  | packetReceived node source sender =>
      obtain rfl := Option.some.inj stepped
      exact sound.quiet ((sound.kept node).packetReceived source sender)
  | addEntry node address macAddress =>
      have valid : macAddress ≠ [] := by
        obtain ⟨other, -, rfl⟩ := legal.1
        intro none
        have length := link.addresses other
        rw [none, List.length_nil] at length
        have valid := link.valid
        omega
      obtain ⟨interface, adds, inv⟩ := (sound.kept node).addEntry valid legal.1 legal.2
      rw [State.step, adds] at stepped
      obtain rfl := Option.some.inj stepped
      exact sound.quiet inv
  | removeAutoGeneratedEntries node =>
      obtain rfl := Option.some.inj stepped
      exact sound.quiet (sound.kept node).removeAutoGeneratedEntries
  | flush node =>
      obtain rfl := Option.some.inj stepped
      exact sound.quiet (sound.kept node).flush
  | remove node address =>
      obtain rfl := Option.some.inj stepped
      exact sound.quiet ((sound.kept node).remove address)

end Sound

/-- How a link resolves the packets of a station: nothing fails; those for one address go out in their
order and to a station that has the address, and each is in one place; and none waits for longer
than all the retries take. -/
structure Resolves (link : Link Node) (state : State Node Pair) (node : Node) : Prop where
  sends : ∀ pair dest, (state.step link (.send node pair dest)).isSome
  receives : ∀ index < state.air.length, (state.step link (.receive node index)).isSome
  right : ∀ record ∈ (state.interfaces node).sent,
    (link.station node).hardwareDestination record.1 = some record.2.2 ∨
      (link.station node).hardwareDestination record.1 = none ∧ link.Owns record.1 record.2.2
  custody : ∀ dest, Custody ((state.interfaces node).handedFor dest)
    ((state.interfaces node).sentTo dest) ((state.interfaces node).waitingFor dest)
    ((state.interfaces node).goneFor dest)
  bounded : ∀ dest, ∀ entry ∈ (state.interfaces node).cache.lookup dest,
    if entry.isWaitReply then
      entry.pending ≠ [] ∧
        entry.pending.length ≤ max 1 (link.station node).attributes.pendingQueueSize ∧
        state.now ≤ entry.asked + ((link.station node).attributes.maxRetries + 1) *
          (link.station node).attributes.waitReplyTimeout
    else entry.pending = []

/-- Two stations, 10.0.0.1 and 10.0.0.2. -/
def twoStations : Link Bool where
  station node := {
    getAddress := [0, 0, 0, 0, 0, if node then 2 else 1]
    getBroadcast := [255, 255, 255, 255, 255, 255]
    getMulticast := fun _ => [1, 0, 94, 0, 0, 0]
    ifaddrs := [{ getLocal := if node then 0x0a000002 else 0x0a000001, getMask := 0xffffff00 }] }
  length := 6
  valid := Or.inl rfl
  addresses _ := rfl
  broadcasts _ := rfl

/-- The first request is lost, and another is sent when the timer goes off. -/
def lostRequest : List (Event Bool ℕ) :=
  [.send false 7 0x0a000002, .sendArpRequest false 0, .send false 8 0x0a000002,
    .advance 1000000000, .handleWaitReplyTimeout false]

def resolved : List (Event Bool ℕ) :=
  lostRequest ++ [.receive true 1, .receive false 2, .send false 9 0x0a000002]

example : (run (State.step twoStations) {} resolved).map (fun state =>
    (state.interfaces false).sent) = some
      [(0x0a000002, 7, [0, 0, 0, 0, 0, 2]), (0x0a000002, 8, [0, 0, 0, 0, 0, 2]),
        (0x0a000002, 9, [0, 0, 0, 0, 0, 2])] := by decide +kernel

/-- A request, one that was sent or one that is scheduled and sent first, is received by `owner`,
and then the reply by `node`. -/
inductive Exchange (link : Link Node) (state : State Node Pair) (node owner : Node)
    (dest : Ipv4Address) : List (Event Node Pair) → Prop
  | sent {index : ℕ} (isRequest : state.air[index]? =
      some ((link.station node).sendArpRequest dest).serialize) :
      Exchange link state node owner dest
        [.receive owner index, .receive node state.air.length]
  | scheduled {index : ℕ} (isNext : (state.interfaces node).scheduled[index]? = some dest) :
      Exchange link state node owner dest
        [.sendArpRequest node index, .receive owner state.air.length,
          .receive node (state.air.length + 1)]

theorem Exchange.legal {node owner : Node} {dest : Ipv4Address} {more : List (Event Node Pair)}
    (exchange : Exchange link state node owner dest more) :
    Guarded (State.step link) (State.Legal link) state more := by
  refine guarded_of_forall fun other event member => ?_
  cases exchange with
  | sent isRequest =>
      simp only [List.mem_cons, List.not_mem_nil, or_false] at member
      rcases member with rfl | rfl <;> trivial
  | scheduled isNext =>
      simp only [List.mem_cons, List.not_mem_nil, or_false] at member
      rcases member with rfl | rfl | rfl <;> trivial

theorem Sound.answered (sound : Sound link state) {node owner : Node} {dest : Ipv4Address}
    {entry : Entry Pair} (found : (state.interfaces node).cache.lookup dest = some entry)
    (waits : entry.isWaitReply = true) (has : (link.station owner).isLocal dest = true)
    (source : (link.station node).isLocal ((link.station node).selectSourceAddress dest) = true)
    {index : ℕ} (isRequest : state.air[index]? =
      some ((link.station node).sendArpRequest dest).serialize) :
    ∃ last, run (State.step link) state
        [.receive owner index, .receive node state.air.length] = some last ∧
      (∃ told, (last.interfaces node).cache.lookup dest = some told ∧ told.isAlive = true ∧
        told.macAddress = (link.station owner).getAddress) ∧
      (last.interfaces node).sentTo dest = (state.interfaces node).sentTo dest ++
        if (state.interfaces node).ifup then entry.pending else [] := by
  let request := (link.station node).sendArpRequest dest
  let reply := (link.station owner).sendArpReply dest request.ipv4Source request.macSource
  have answers : (state.interfaces owner).receive (link.station owner) state.now request =
      some (state.interfaces owner, [reply]) := by
    obtain ⟨address, known, here⟩ := List.any_eq_true.mp has
    exact if_pos (List.any_eq_true.mpr ⟨address, known, Bool.and_eq_true_iff.mpr ⟨rfl, here⟩⟩)
  have first := (message_request link node dest).heard isRequest answers
  let middle := state.put owner (state.interfaces owner) [reply]
  have same : middle.interfaces node = state.interfaces node :=
    State.put_unchanged owner node [reply]
  have isReply : middle.air[state.air.length]? = some reply.serialize := by simp [middle]
  have replies : reply.isReply = true := rfl
  obtain ⟨next, receives, flushed⟩ :=
    receive_reply (sound.kept node) replies source rfl found waits
  rw [← same] at receives
  have second := (message_reply (message_request link node dest) has).heard isReply receives
  refine ⟨middle.put node next [], ?_, ?_, ?_⟩
  · rw [run_cons, first, Option.bind_some, run_cons, second]
    rfl
  · refine ⟨(entry.told state.now reply.macSource).clearPendingPacket, ?_, rfl, rfl⟩
    rw [State.put_self, flushed.lookup]
    exact if_pos rfl
  · have sent := flushed.sentTo dest
    rw [State.put_self, sent]
    simp only [reply, Station.sendArpReply, ArpHeader.setReply, and_true]
    rfl

/-- Whatever has been lost before, what waits for the address of a station can still go out, when the
station that asks has the address it asks from. -/
theorem resolution_completes (link : Link Node) {events : List (Event Node Pair)}
    (legal : Guarded (State.step link) (State.Legal link) {} events) {state : State Node Pair}
    (ran : run (State.step link) {} events = some state) {node owner : Node} {dest : Ipv4Address}
    {entry : Entry Pair} (found : (state.interfaces node).cache.lookup dest = some entry)
    (waits : entry.isWaitReply = true) (has : (link.station owner).isLocal dest = true)
    (source : (link.station node).isLocal ((link.station node).selectSourceAddress dest) = true) :
    ∃ more last, Exchange link state node owner dest more ∧
      Guarded (State.step link) (State.Legal link) state more ∧
      run (State.step link) state more = some last ∧
      (∃ told, (last.interfaces node).cache.lookup dest = some told ∧ told.isAlive = true ∧
        told.macAddress = (link.station owner).getAddress) ∧
      (last.interfaces node).sentTo dest = (state.interfaces node).sentTo dest ++
        if (state.interfaces node).ifup then entry.pending else [] := by
  have sound : Sound link state := run_invariant (fun _ _ _ sound legal stepped =>
    sound.step legal stepped) (sound_initial link) legal ran
  rcases (((sound.kept node).entries dest entry found).waiting waits).asked with scheduled | asked
  · obtain ⟨index, isNext⟩ := List.mem_iff_getElem?.mp scheduled
    let asking : Ipv4Interface Pair := { state.interfaces node with
      scheduled := (state.interfaces node).scheduled.eraseIdx index }
    let middle := state.put node asking [(link.station node).sendArpRequest dest]
    have first : state.step link (.sendArpRequest node index) = some middle := by
      rw [State.step, isNext]
      rfl
    have same : middle.interfaces node = asking := State.put_self node asking _
    have still : (middle.interfaces node).cache.lookup dest = some entry := by
      rw [same]
      exact found
    have isLegal : state.Legal link (.sendArpRequest node index) := trivial
    have newest : middle.air[state.air.length]? =
        some ((link.station node).sendArpRequest dest).serialize := by simp [middle]
    have length : middle.air.length = state.air.length + 1 := by simp [middle]
    obtain ⟨last, goes, told, sent⟩ :=
      (sound.step isLegal first).answered still waits has source newest
    have exchange : Exchange link state node owner dest _ := .scheduled isNext
    refine ⟨_, last, exchange, exchange.legal, ?_, told, ?_⟩
    · rw [run_cons, first, Option.bind_some, ← length]
      exact goes
    · rw [sent, same]
      rfl
  · obtain ⟨index, isRequest⟩ := List.mem_iff_getElem?.mp asked
    have exchange : Exchange link state node owner dest _ := .sent isRequest
    obtain ⟨last, goes, completes⟩ := sound.answered found waits has source isRequest
    exact ⟨_, last, exchange, exchange.legal, goes, completes⟩

theorem resolution_completes_lost : ∃ state entry,
    run (State.step twoStations) {} lostRequest = some state ∧
    (state.interfaces false).cache.lookup 0x0a000002 = some entry ∧ entry.isWaitReply = true ∧
    ∃ more last, Exchange twoStations state false true 0x0a000002 more ∧
      Guarded (State.step twoStations) (State.Legal twoStations) state more ∧
      run (State.step twoStations) state more = some last ∧
      (∃ told, (last.interfaces false).cache.lookup 0x0a000002 = some told ∧ told.isAlive = true ∧
        told.macAddress = (twoStations.station true).getAddress) ∧
      (last.interfaces false).sentTo 0x0a000002 = (state.interfaces false).sentTo 0x0a000002 ++
        if (state.interfaces false).ifup then entry.pending else [] := by
  have waits : ((run (State.step twoStations) {} lostRequest).bind fun state =>
      (state.interfaces false).cache.lookup 0x0a000002).any Entry.isWaitReply = true := by
    decide +kernel
  obtain ⟨entry, found, waiting⟩ := (Option.any_eq_true _ _).mp waits
  obtain ⟨state, ran, isEntry⟩ := Option.bind_eq_some_iff.mp found
  exact ⟨state, entry, ran, isEntry, waiting, resolution_completes twoStations
    (by decide +kernel) ran isEntry waiting
    (show (twoStations.station true).isLocal 0x0a000002 = true by decide) (by decide)⟩

end FISim.Arp
